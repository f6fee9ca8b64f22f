import FtpServer.Address.HostPort
import FtpServer.Proofs.Framing
import FtpServer.Proofs.Grammar
import FtpServer.Proofs.PathText
import Mathlib.Data.List.TakeWhile

/-!
# Texts of one line

A text without carriage returns and line feeds is framed as one line, which ends where the frame
does.  Such are the texts of plain paths, of data addresses and of verbs; a control line, which was
read up to a line feed, and the argument of its command have at least no line feeds.
-/

namespace FtpServer

open Text

namespace Text

variable {text : String}

/-- No carriage return and no line feed. -/
def IsOneLine (text : String) : Prop := '\r' ∉ text.toList ∧ '\n' ∉ text.toList

instance (text : String) : Decidable (IsOneLine text) := inferInstanceAs (Decidable (_ ∧ _))

theorem isOneLine_append (a b : String) :
    IsOneLine (a ++ b) ↔ IsOneLine a ∧ IsOneLine b := by
  simp only [IsOneLine, String.toList_append, List.mem_append, not_or]
  exact and_and_and_comm

theorem isOneLine_between {before after : String} (hends : IsOneLine (before ++ after))
    (h : IsOneLine text) : IsOneLine (before ++ text ++ after) := by
  simp only [isOneLine_append] at hends ⊢
  exact ⟨⟨hends.1, h⟩, hends.2⟩

theorem isOneLine_of_forall (h : ∀ c ∈ text.toList, c ≠ '\r' ∧ c ≠ '\n') : IsOneLine text :=
  ⟨fun hmem => (h _ hmem).1 rfl, fun hmem => (h _ hmem).2 rfl⟩

end Text

theorem Path.IsPlain.isOneLine {p : Path} (hp : p.IsPlain) : IsOneLine p.text := by
  apply isOneLine_of_forall
  intro c hc
  rw [text, String.toList_ofList] at hc
  by_cases hroot : p.segments = []
  · rw [chars_root hroot, List.mem_singleton] at hc
    subst hc
    decide
  · rw [chars_eq_slashed hroot] at hc
    obtain ⟨name, hname, hc⟩ := List.mem_flatMap.1 hc
    rcases List.mem_cons.1 hc with rfl | hc
    · decide
    · have hplain := (hp name hname).plain c hc
      constructor <;> rintro rfl <;> cases hplain

theorem isOneLine_digit {c : Char} (h : isDigit c = true) : c ≠ '\r' ∧ c ≠ '\n' := by
  constructor <;> rintro rfl <;> cases h

theorem HostPort.isOneLine_encode (s : SocketV4) : IsOneLine (HostPort.encode s) := by
  apply isOneLine_of_forall
  intro c hc
  rw [encode, String.toList_ofList, encodeChars] at hc
  rcases mem_join hc with rfl | ⟨part, hpart, hc⟩
  · decide
  · obtain ⟨n, -, rfl⟩ := List.mem_map.1 hpart
    exact isOneLine_digit (isDigit_of_mem_digits hc)

theorem le_toUpper {c : Char} (h : c.isAlpha = true) : 65 ≤ c.toUpper.toNat := by
  have hA : ('A' : Char).val.toNat = 65 := rfl
  have ha : ('a' : Char).val.toNat = 97 := rfl
  have hz : ('z' : Char).val.toNat = 122 := rfl
  unfold Char.toUpper
  split
  next hlower =>
    simp only [UInt32.le_iff_toNat_le] at hlower
    show 65 ≤ (c.val + ('A'.val - 'a'.val)).toNat
    rw [UInt32.toNat_add, UInt32.toNat_sub]
    omega
  next hlower =>
    rcases Bool.or_eq_true_iff.1 h with hupper | hlower'
    · exact UInt32.le_iff_toNat_le.1 (of_decide_eq_true hupper).1
    · have hbounds := Bool.and_eq_true_iff.1 hlower'
      exact absurd ⟨of_decide_eq_true hbounds.1, of_decide_eq_true hbounds.2⟩ hlower

namespace Command

variable {line : String} {command : Command}

theorem Written.mem {verb arg : String} (h : Written verb arg line) :
    ∀ c ∈ arg.toList, c ∈ line.toList := by
  cases h with
  | alone => simp
  | followed arg => simp +contextual

theorem IsVerb.isOneLine_toUpper {verb : String} (h : IsVerb verb) : IsOneLine verb.toUpper := by
  rw [toUpper_eq]
  apply isOneLine_of_forall
  intro c hc
  rw [String.toList_ofList] at hc
  obtain ⟨d, hd, rfl⟩ := List.mem_map.1 hc
  have hletter := le_toUpper (h.letters d hd)
  constructor <;> intro heq <;> rw [heq] at hletter <;> exact absurd hletter (by decide)

theorem mem_of_parse (h : parse line = .ok command) {arg : String}
    (harg : command.argument? = some arg) : ∀ c ∈ arg.toList, c ∈ line.toList := by
  obtain ⟨verb, arg', -, hwritten, rfl⟩ := written_of_parse h
  obtain rfl : arg' = arg := by
    rcases argument?_ofVerb verb.toUpper arg' with hsome | hnone
    · exact Option.some.inj (hsome.symm.trans harg)
    · cases hnone.symm.trans harg
  exact hwritten.mem

theorem isOneLine_of_parse {verb : String} (h : parse line = .ok (.unknown verb)) :
    IsOneLine verb := by
  obtain ⟨verb', arg, hverb, -, heq⟩ := written_of_parse h
  obtain rfl : verb = verb'.toUpper := (congrArg Command.verb heq).trans (verb_ofVerb _ _)
  exact hverb.isOneLine_toUpper

end Command

namespace Line

variable {limit : Limit} {p : Partial} {text : String}

theorem mem_of_mem_dropReturn {b : UInt8} {bytes : Bytes} (h : b ∈ dropReturn bytes) : b ∈ bytes := by
  unfold dropReturn at h
  split at h
  next => exact List.dropLast_subset bytes h
  next => exact h

theorem not_mem_finish (hp : lineFeed ∉ p.kept) (h : p.finish limit = .line text) :
    '\n' ∉ text.toList := by
  unfold Partial.finish at h
  dsimp only at h
  split at h
  next => cases h
  next =>
    obtain rfl := Incoming.line.inj h
    intro hmem
    have hfeed := mem_of_mem_decode (by decide) (by decide) hmem
    exact hp (mem_of_mem_dropReturn (List.mem_of_mem_take hfeed))

theorem not_mem_close (hp : lineFeed ∉ p.kept) (h : p.close limit = .line text) :
    '\n' ∉ text.toList := by
  unfold Partial.close at h
  split at h
  next => cases h
  next => exact not_mem_finish hp h

theorem not_mem_add (hp : lineFeed ∉ p.kept) (chunk : Bytes) :
    lineFeed ∉ (p.add limit (chunk.takeWhile (· != lineFeed))).kept := by
  intro hmem
  rcases List.mem_append.1 hmem with hmem | hmem
  · exact hp hmem
  · have hother := List.mem_takeWhile_imp (List.mem_of_mem_take hmem)
    simp at hother

theorem not_mem_readFrom {ds : List Delivery} (hp : lineFeed ∉ p.kept)
    (h : (readFrom limit p ds).1 = .line text) : '\n' ∉ text.toList := by
  fun_induction readFrom limit p ds with
  | case1 p => exact not_mem_close hp h
  | case2 => cases h
  | case3 p rest => exact not_mem_close hp h
  | case4 p chunk rest _ p' hfed ih =>
    apply ih _ h
    unfold Partial.feed at hfed
    dsimp only at hfed
    split at hfed
    next =>
      obtain rfl := Fed.more.inj hfed
      exact not_mem_add hp chunk
    next => cases hfed
  | case5 p chunk rest _ line after hfed =>
    unfold Partial.feed at hfed
    dsimp only at hfed
    split at hfed
    next => cases hfed
    next =>
      obtain ⟨hline, -⟩ := (Fed.ended.injEq ..).mp hfed
      exact not_mem_finish (not_mem_add hp chunk) (hline.trans h)

theorem not_mem_read {most : UInt64} {ds rest : List Delivery}
    (h : read most ds = some (.line text, rest)) : '\n' ∉ text.toList := by
  obtain ⟨limit, -, hread⟩ := Option.map_eq_some_iff.1 h
  exact not_mem_readFrom List.not_mem_nil (congrArg Prod.fst hread)

end Line

namespace Reply

variable {r : Reply} {cs : List Char}

theorem not_mem_padded (width n : Nat) : '\r' ∉ padded width n ∧ '\n' ∉ padded width n := by
  exact ⟨fun hmem => (isOneLine_digit (isDigit_of_mem_padded hmem)).1 rfl,
    fun hmem => (isOneLine_digit (isDigit_of_mem_padded hmem)).2 rfl⟩

theorem dropFinal_of_getLast? {c : Char} (h : cs.getLast? ≠ some c) : dropFinal c cs = cs := if_neg h

/-- Without a line feed, and a carriage return only before its end, a text is one line. -/
theorem lines_eq (hfeed : '\n' ∉ cs) (hend : cs.getLast? ≠ some '\r') : lines cs = [cs] := by
  have hfinal : cs.getLast? ≠ some '\n' := fun hlast => hfeed (List.mem_of_getLast? hlast)
  rw [lines, dropFinal_of_getLast? hfinal, split_of_not_mem hfeed, List.map_singleton,
    dropFinal_of_getLast? hend]

/-- The frame of such a text ends in its only line feed, and repeats the carriage returns of the
text before the last one. -/
theorem encode_frame_line (hfeed : '\n' ∉ r.text.toList) (hend : r.text.toList.getLast? ≠ some '\r') :
    ∃ body, encode r.frame = body ++ [Line.carriageReturn, Line.lineFeed] ∧
      Line.lineFeed ∉ body ∧ (Line.carriageReturn ∈ body ↔ '\r' ∈ r.text.toList) := by
  refine ⟨utf8 (padded 3 r.code ++ ' ' :: r.text.toList), ?_, ?_, ?_⟩
  · have hchars : r.frameChars = (padded 3 r.code ++ ' ' :: r.text.toList) ++ ['\r', '\n'] := by
      rw [frameChars, lines_eq hfeed hend, frameLines]
    rw [frame, encode_ofList, hchars, utf8_append]
    rfl
  · have hcode := (not_mem_padded 3 r.code).2
    intro hmem
    have hmem' := (mem_utf8 (c := '\n') (by decide) _).1 hmem
    simp [hcode, hfeed] at hmem'
  · have hcode := (not_mem_padded 3 r.code).1
    have hmem := mem_utf8 (c := '\r') (by decide) (padded 3 r.code ++ ' ' :: r.text.toList)
    have hbyte : UInt8.ofNat '\r'.toNat = Line.carriageReturn := rfl
    rw [hbyte] at hmem
    rw [hmem]
    simp [hcode]

end Reply

end FtpServer
