import FtpServer.Proofs.Grammar
import FtpServer.Proofs.LineCapacity
import FtpServer.Proofs.QuotedText
import FtpServer.Proofs.Replay
import FtpServer.Proofs.Turns
import FtpServer.Proofs.Utf8
import FtpServer.Proofs.HandledCommands

/-!
# Passwords and the log

Where a `PASS` line is read as a command, no warning, no error and no record of the command depends
on its password; only the welcome of a guest shows it.  Where the line is too long, a warning shows
what it begins with, and a few characters of the password are among that.
-/

namespace FtpServer

open Program Dialogue Text Line Scene

/-- A line with the verb `PASS` in any case and a password behind one space. -/
structure PassLine where
  verb : String
  isVerb : Command.IsVerb verb
  toUpper_verb : verb.toUpper = "PASS"
  /-- All bytes behind the space, with a carriage return that may stand before the line feed. -/
  password : Bytes
  onOneLine : lineFeed ∉ password

/-- How a line comes from its connection: some line feed ends it, or the connection does. -/
inductive Line.Comes (limit : UInt64) (line : Bytes) (incoming : Incoming) : Prop
  | ended {ds left : List Delivery} {rest : Bytes} {more : List Bytes} (hds : Nonempty ds)
      (hsegments : segments ds = (line ++ lineFeed :: rest) :: more)
      (hread : read limit ds = some (incoming, left)) : Comes limit line incoming
  | last {ds left : List Delivery} (hds : Nonempty ds) (hsegments : segments ds = [line])
      (hread : read limit ds = some (incoming, left)) : Comes limit line incoming

/-- A carriage return is dropped from what comes last, if nothing else can have one. -/
theorem Line.dropReturn_append {front back : Bytes} (h : front.getLast? ≠ some carriageReturn) :
    dropReturn (front ++ back) = front ++ dropReturn back := by
  by_cases hback : back = []
  · subst hback
    rw [List.append_nil, dropReturn, if_neg h]
    exact (List.append_nil front).symm
  · rw [dropReturn, dropReturn, List.getLast?_append_of_ne_nil _ hback]
    split
    next => rw [List.dropLast_append_of_ne_nil hback]
    next => rfl

theorem Command.ascii_of_isAlpha {c : Char} (h : c.isAlpha = true) : c.toNat < 128 := by
  rcases Bool.or_eq_true_iff.1 h with hupper | hlower
  · have hZ : c.val.toNat ≤ 90 := UInt32.le_iff_toNat_le.1 (of_decide_eq_true hupper).2
    exact Nat.lt_of_le_of_lt hZ (by decide)
  · have hz : c.val.toNat ≤ 122 :=
      UInt32.le_iff_toNat_le.1 (of_decide_eq_true (Bool.and_eq_true_iff.1 hlower).2)
    exact Nat.lt_of_le_of_lt hz (by decide)

namespace PassLine

variable {a b : PassLine} {limit : UInt64} {incoming : Incoming}

def opening (a : PassLine) : List Char := a.verb.toList ++ [' ']

def bytes (a : PassLine) : Bytes := utf8 a.opening ++ a.password

def Fits (limit : UInt64) (a : PassLine) : Prop := (dropReturn a.bytes).length ≤ limit.toNat

instance (limit : UInt64) (a : PassLine) : Decidable (a.Fits limit) :=
  inferInstanceAs (Decidable (_ ≤ _))

/-- The password as the server has it. -/
def given (a : PassLine) : String := decode (dropReturn a.password)

/-- The characters of the password that the log shows of a line that is too long. -/
def shown (limit : UInt64) (a : PassLine) : List Char :=
  (decode ((dropReturn a.password).take (limit.toNat - 5))).toList.take 11

theorem opening_ascii (a : PassLine) : ∀ c ∈ a.opening, c.toNat < 128 := by
  intro c hc
  rcases List.mem_append.1 hc with hletter | hspace
  · exact Command.ascii_of_isAlpha (a.isVerb.letters c hletter)
  · rw [List.mem_singleton.1 hspace]
    decide

theorem length_opening (a : PassLine) : a.opening.length = 5 := by
  have hverb : a.verb.toList.map Char.toUpper = "PASS".toList := by
    rw [← a.toUpper_verb, Command.toUpper_eq, String.toList_ofList]
  have hlength := congrArg List.length hverb
  rw [List.length_map] at hlength
  rw [opening, List.length_append, hlength]
  rfl

theorem bytes_ne_nil (a : PassLine) : a.bytes ≠ [] := by
  intro hnil
  have hlength := congrArg List.length hnil
  rw [bytes, List.length_append, length_utf8 a.opening_ascii, length_opening] at hlength
  simp at hlength

theorem feedless (a : PassLine) : lineFeed ∉ a.bytes := by
  intro hmem
  rcases List.mem_append.1 hmem with hmem | hmem
  · have hspace : ('\n' : Char) ∈ a.opening := (mem_utf8 (c := '\n') (by decide) _).1 hmem
    rcases List.mem_append.1 hspace with hletter | hspace
    · exact absurd (a.isVerb.letters _ hletter) (by decide)
    · cases List.mem_singleton.1 hspace
  · exact a.onOneLine hmem

theorem dropReturn_bytes (a : PassLine) :
    dropReturn a.bytes = utf8 a.opening ++ dropReturn a.password := by
  refine dropReturn_append ?_
  rw [opening, utf8_append, List.getLast?_append_of_ne_nil _ (by decide)]
  decide

theorem whole_fitting (hfits : a.Fits limit) :
    ∃ text, whole limit a.bytes = .line text ∧ Command.parse text = .ok (.pass a.given) := by
  refine ⟨a.verb ++ " " ++ a.given, ?_, ?_⟩
  · rw [Line.whole_of_fits hfits, dropReturn_bytes, decode_utf8_append, opening, String.ofList_append,
      String.ofList_toList]
    rfl
  · rw [Command.parse_written a.isVerb (.followed _), a.toUpper_verb]
    rfl

theorem whole_long (hlong : ¬ a.Fits limit) :
    whole limit a.bytes = .tooLong (String.ofList (a.opening.take limit.toNat) ++
      decode ((dropReturn a.password).take (limit.toNat - 5))) := by
  have hlong' : ¬ (dropReturn a.bytes).length ≤ limit.toNat := hlong
  rw [whole, if_neg hlong', dropReturn_bytes, List.take_append, take_utf8 a.opening_ascii,
    decode_utf8_append, length_utf8 a.opening_ascii, length_opening]

/-- What is shown of that: five characters before the password, and eleven of the password. -/
theorem take_kept (a : PassLine) (limit : UInt64) :
    (String.ofList (a.opening.take limit.toNat) ++
      decode ((dropReturn a.password).take (limit.toNat - 5))).toList.take 16 =
    a.opening.take limit.toNat ++ a.shown limit := by
  have hlength : (a.opening.take limit.toNat).length = min limit.toNat 5 := by
    rw [List.length_take, length_opening]
  rw [String.toList_append, String.toList_ofList, List.take_append, hlength,
    List.take_of_length_le (by omega), shown]
  by_cases hroom : 5 ≤ limit.toNat
  · rw [Nat.min_eq_right hroom]
  · have hnone : decode [] = "" := rfl
    rw [Nat.sub_eq_zero_of_le (Nat.le_of_not_le hroom), List.take_zero, hnone]
    simp

theorem opening_shown_inj :
    a.opening.take limit.toNat ++ a.shown limit = b.opening.take limit.toNat ++ b.shown limit ↔
      a.opening.take limit.toNat = b.opening.take limit.toNat ∧ a.shown limit = b.shown limit := by
  refine ⟨fun h => List.append_inj h ?_, fun h => by rw [h.1, h.2]⟩
  rw [List.length_take, List.length_take, length_opening, length_opening]

end PassLine

/-- Two lines that are too long are told apart by what is shown of them. -/
theorem Record.oversized_inj {address : Socket} {kept kept' : String} :
    Record.oversized address kept = Record.oversized address kept' ↔
      kept.toList.take 16 = kept'.toList.take 16 := by
  have htake (s : String) : (s.take 16).toString.toList = s.toList.take 16 :=
    String.toList_copy_take
  rw [← htake, ← htake, String.toList_inj, Record.oversized, Record.oversized]
  generalize (kept.take 16).toString = front
  generalize (kept'.take 16).toString = front'
  rw [Record.mk.injEq, String.append_right_inj, quoted_injective.eq_iff]
  simp

namespace Line

variable {limit : UInt64} {line : Bytes} {incoming : Incoming}

theorem Comes.eq_whole (h : Comes limit line incoming) (hline : lineFeed ∉ line)
    (hnonempty : line ≠ []) : incoming = whole limit line := by
  cases h with
  | ended hds hsegments hread =>
    obtain ⟨room, hof, hroom⟩ := Option.map_eq_some_iff.1 hread
    obtain rfl := Limit.of?_eq_some_iff.1 hof
    exact (congrArg Prod.fst hroom).symm.trans (read_line hds hline hsegments).1
  | last hds hsegments hread =>
    obtain ⟨room, hof, hroom⟩ := Option.map_eq_some_iff.1 hread
    obtain rfl := Limit.of?_eq_some_iff.1 hof
    refine (congrArg Prod.fst hroom).symm.trans ?_
    rw [read_last hds hline hsegments, if_neg hnonempty]

end Line

namespace Session

variable {ctx : Context} {c : Client} {l l' : Transcript Request.Answer} {r r' : Client × Onward}
variable {a b : PassLine} {incoming incoming' : Incoming}

def records (l : Transcript Request.Answer) : List Record :=
  l.filterMap fun
    | ⟨.note record, _⟩ => some record
    | _ => none

/-- The warnings and errors among it. -/
def alarms (l : Transcript Request.Answer) : List Record :=
  (records l).filter fun record => record.level ≠ .info

/-- The codes of the replies, and whether they got through. -/
def fates (l : Transcript Request.Answer) : List (Nat × Except OsError Unit) :=
  l.filterMap fun
    | ⟨.writeReply reply, result⟩ => some (reply.code, result)
    | _ => none

@[simp] theorem records_append (l l' : Transcript Request.Answer) :
    records (l ++ l') = records l ++ records l' := List.filterMap_append

@[simp] theorem fates_append (l l' : Transcript Request.Answer) :
    fates (l ++ l') = fates l ++ fates l' := List.filterMap_append

def refusal? (c : Client) (code : Nat) : Option LoginError :=
  match code, c.username with
  | 503, _ => some .userRequired
  | 501, _ => some (.malformedInput "Invalid password format")
  | 530, none => some .passwordTooLong
  | 530, some name => some (.loginIncorrect name)
  | _, _ => none

/-- Who a `PASS` makes of a client. -/
def identity (c : Client) (password : String) : String :=
  c.username.getD (Account.anonymous ++ "/" ++ password)

def verdict (c : Client) (password : String) (code : Nat) : List Record :=
  if code = Reply.loginSuccess then [.loggedIn c.address (identity c password)]
  else (refusal? c code).toList.map (.loginRefused c.address)

def aftermath (c : Client) (code : Nat) : Except OsError Unit → List Record
  | .ok () =>
    (refusal? c code).toList.map fun e => .commandFailed c.address (.pass "") e.replyText
  | .error cause => [.replyFailed c.address cause]

def passRecords (c : Client) (password : String) (code : Nat) (result : Except OsError Unit) :
    List Record :=
  .executed c.address (.pass "") :: (verdict c password code ++ aftermath c code result)

/-- A `PASS` is answered, and the code of its reply tells what was noted and why it failed. -/
inductive PassAnswered (c : Client) (password : String) :
    Transcript Request.Answer → Client × Outcome → Prop
  | welcomed {l : Transcript Request.Answer} {c' : Client} (text : String)
      (haddress : c'.address = c.address) (hfates : fates l = [])
      (hrecords : records l = [.loggedIn c.address (identity c password)]) :
      PassAnswered c password l (c', .success Reply.loginSuccess text)
  | refused {l : Transcript Request.Answer} {c' : Client} {e : LoginError}
      (haddress : c'.address = c.address) (he : refusal? c e.code = some e) (hfates : fates l = [])
      (hrecords : records l = [.loginRefused c.address e]) :
      PassAnswered c password l (c', .failure e.code e.replyText)

theorem anonymousIdentity_refusal {settings : Settings} {password : String} {e : LoginError}
    (hc : c.username = none) (h : Account.anonymousIdentity settings password = .error e) :
    refusal? c e.code = some e := by
  obtain rfl | rfl := Account.anonymousIdentity_error h
  · simp [refusal?, LoginError.code, hc]
  · simp [refusal?, LoginError.code]

theorem identify_refusal (ctx : Context) (c : Client) (password : String) :
    (identify ctx c password).Yields fun l result => fates l = [] ∧ records l = [] ∧
      (∀ name, result = .ok name → name = identity c password) ∧
      ∀ e, result = .error e → refusal? c e.code = some e := by
  unfold identify
  split
  next hnone =>
    refine ⟨rfl, rfl, fun name h => ?_, fun _ h => anonymousIdentity_refusal hnone h⟩
    rw [(Account.anonymousIdentity_eq_ok_iff.1 h).2, identity, hnone]
    rfl
  next name hname =>
    refine Yields.question fun accepted => ?_
    split
    next =>
      refine ⟨rfl, rfl, fun _ h => ?_, fun _ h => by cases h⟩
      rw [← Except.ok.inj h, identity, hname]
      rfl
    next =>
      refine ⟨rfl, rfl, fun _ h => (by cases h), fun e h => ?_⟩
      obtain rfl := Except.error.inj h
      simp [refusal?, LoginError.code, hname]

theorem refuseLogin_answered {c' : Client} {e : LoginError} (password : String)
    (haddress : c'.address = c.address) (he : refusal? c e.code = some e) :
    (refuseLogin ctx c' e).Yields (PassAnswered c password) := by
  have hrecord : [Record.loginRefused c'.address e] = [.loginRefused c.address e] := by rw [haddress]
  refine Yields.question fun _ => ?_
  dsimp only
  split
  next => exact Yields.question fun _ => .refused haddress he rfl hrecord
  next => exact .refused haddress he rfl hrecord

theorem onPass_answered (ctx : Context) (c : Client) (password : String) :
    (onPass ctx c password).Yields (PassAnswered c password) := by
  unfold onPass
  split
  next => exact refuseLogin_answered password rfl rfl
  next =>
    refine (identify_refusal ctx c password).bind fun l result hl => ?_
    obtain ⟨hfates, hrecords, hidentity, hrefusal⟩ := hl
    cases result with
    | ok name =>
      obtain rfl := hidentity name rfl
      refine Yields.question fun _ => .welcomed _ rfl ?_ ?_
      · rw [fates_append, hfates]
        rfl
      · rw [records_append, hrecords]
        rfl
    | error e =>
      have hanswered : (refuseLogin ctx c.resetLogin e).Yields (PassAnswered c password) :=
        refuseLogin_answered password rfl (hrefusal e rfl)
      refine hanswered.mono fun l' r hr => ?_
      cases hr with
      | welcomed text haddress hfates' hrecords' =>
        exact .welcomed text haddress (by simp [hfates, hfates']) (by simp [hrecords, hrecords'])
      | refused haddress he hfates' hrecords' =>
        exact .refused haddress he (by simp [hfates, hfates']) (by simp [hrecords, hrecords'])

/-- A reply that is sent is concluded; one that is lost is an error. -/
theorem deliver_fate (c : Client) (command : Command) (status : Status) (reply : Reply) :
    (deliver c command ⟨status, some reply, none⟩).Yields fun l _ => ∃ result,
      fates l = [(reply.code, result)] ∧
      (result = .ok () → records l = records (concluding c command status)) ∧
      ∀ cause, result = .error cause → records l = [.replyFailed c.address cause] := by
  refine Yields.question fun _ => ?_
  refine Yields.question fun result => ?_
  refine Yields.question fun _ => ?_
  cases result with
  | ok =>
    refine (conclude_concluding c command status).mono fun l onward h => ?_
    obtain ⟨rfl, -⟩ := h
    refine ⟨.ok (), ?_, fun _ => rfl, fun _ h => by cases h⟩
    cases status <;> rfl
  | error cause =>
    refine Yields.question fun _ => ⟨.error cause, rfl, fun h => (by cases h), fun cause' h => ?_⟩
    rw [← Except.error.inj h]
    rfl

/-- The reply tells all that is noted, but for the password of a guest. -/
theorem onCommand_pass (ctx : Context) (c : Client) (password : String) :
    (onCommand ctx c (.pass password)).Yields fun l _ =>
      ∃ code result, fates l = [(code, result)] ∧ records l = passRecords c password code result := by
  rw [onCommand_eq]
  refine Yields.question fun _ => (onPass_answered ctx c password).bind fun l r h => ?_
  cases h with
  | @welcomed c' text haddress hfates hrecords =>
    refine (deliver_fate c' (.pass password) .success ⟨Reply.loginSuccess, text⟩).bind
      fun l' onward h => ?_
    obtain ⟨result, hfates', hsent, hlost⟩ := h
    rw [haddress] at hlost
    refine ⟨Reply.loginSuccess, result, ?_, ?_⟩
    · show fates (l ++ (l' ++ [])) = _
      simp [hfates, hfates']
    · show _ :: records (l ++ (l' ++ [])) = _
      rw [List.append_nil, records_append, hrecords]
      cases result with
      | ok => rw [hsent rfl]; rfl
      | error cause => rw [hlost cause rfl]; rfl
  | @refused c' e haddress he hfates hrecords =>
    refine (deliver_fate c' (.pass password) (.failure e.replyText) ⟨e.code, e.replyText⟩).bind
      fun l' onward h => ?_
    obtain ⟨result, hfates', hsent, hlost⟩ := h
    have hne : e.code ≠ Reply.loginSuccess := fun hcode => by
      cases e <;> cases hcode
    refine ⟨e.code, result, ?_, ?_⟩
    · show fates (l ++ (l' ++ [])) = _
      simp [hfates, hfates']
    · show _ :: records (l ++ (l' ++ [])) = _
      rw [List.append_nil, records_append, hrecords, passRecords, verdict, if_neg hne, he]
      cases result with
      | ok =>
        rw [hsent rfl, aftermath, he, concluding, haddress]
        rfl
      | error cause =>
        rw [hlost cause rfl, haddress]
        rfl

theorem alarms_passRecords (c : Client) (password : String) (code : Nat)
    (result : Except OsError Unit) :
    (passRecords c password code result).filter (fun record => record.level ≠ .info) =
      (passRecords c "" code result).filter fun record => record.level ≠ .info := by
  unfold passRecords verdict
  split
  next => rfl
  next => rfl

/-- The records of two passwords that are answered alike differ only where a guest is welcomed. -/
theorem passRecords_eq_iff {password password' : String} {code : Nat}
    {result : Except OsError Unit} :
    passRecords c password code result = passRecords c password' code result ↔
      (code = Reply.loginSuccess → c.username = none → password = password') := by
  unfold passRecords verdict
  split
  next hcode =>
    cases hname : c.username with
    | none => simp [hcode, identity, hname, Record.loggedIn, String.append_right_inj]
    | some name => simp [identity, hname]
  next hcode => exact iff_of_true rfl fun hwelcomed => absurd hwelcomed hcode

abbrev Context.lineLimit (ctx : Context) : UInt64 := ctx.settings.maxCommandLength

inductive Noted (limit : UInt64) (c : Client) (a : PassLine) (l : Transcript Request.Answer) : Prop
  | command {code : Nat} {result : Except OsError Unit} (hfits : a.Fits limit)
      (hfates : fates l = [(code, result)]) (hrecords : records l = passRecords c a.given code result)
  | beginning {kept : String} (hlong : ¬ a.Fits limit)
      (hkept : kept.toList.take 16 = a.opening.take limit.toNat ++ a.shown limit)
      (hrecords : records l = [.oversized c.address kept])

theorem onIncoming_noted (ctx : Context) (c : Client) (ha : Comes ctx.lineLimit a.bytes incoming) :
    (onIncoming ctx c incoming).Yields fun l _ => Noted ctx.lineLimit c a l := by
  obtain rfl := ha.eq_whole a.feedless a.bytes_ne_nil
  by_cases hfits : a.Fits ctx.lineLimit
  · obtain ⟨text, htext, hparse⟩ := PassLine.whole_fitting hfits
    simp only [htext, onIncoming, hparse]
    refine (onCommand_pass ctx c _).mono fun l _ h => ?_
    obtain ⟨code, result, hfates, hrecords⟩ := h
    exact .command hfits hfates hrecords
  · rw [PassLine.whole_long hfits]
    have hkept := a.take_kept ctx.lineLimit
    exact remark_yields (fun _ => .beginning hfits hkept rfl) (.beginning hfits hkept rfl)

theorem Noted.of_fitting {limit : UInt64} (ha : Noted limit c a l) (hb : Noted limit c b l')
    (hfits : a.Fits limit) (hfits' : b.Fits limit) (hfates : fates l = fates l') :
    (records l).head? = some (.executed c.address (.pass "")) ∧
      (records l').head? = some (.executed c.address (.pass "")) ∧ alarms l = alarms l' ∧
      (records l = records l' ↔
        (c.username = none → Reply.loginSuccess ∈ (fates l).map Prod.fst → a.given = b.given)) := by
  cases ha with
  | beginning hlong => exact absurd hfits hlong
  | @command code result _ hfates₁ hrecords =>
    cases hb with
    | beginning hlong => exact absurd hfits' hlong
    | command _ hfates₂ hrecords' =>
      rw [hfates₁, hfates₂] at hfates
      obtain ⟨rfl, rfl⟩ := Prod.mk.inj (List.singleton_inj.1 hfates)
      refine ⟨by rw [hrecords]; rfl, by rw [hrecords']; rfl, ?_, ?_⟩
      · rw [alarms, alarms, hrecords, hrecords', alarms_passRecords, alarms_passRecords c b.given]
      · rw [hrecords, hrecords', passRecords_eq_iff, hfates₁]
        simp only [List.map_cons, List.map_nil, List.mem_singleton, eq_comm (a := Reply.loginSuccess)]
        exact ⟨fun h hname hcode => h hcode hname, fun h hcode hname => h hname hcode⟩

theorem Noted.alarms_of_long {limit : UInt64} (ha : Noted limit c a l) (hlong : ¬ a.Fits limit) :
    alarms l = records l := by
  cases ha with
  | command hfits => exact absurd hfits hlong
  | beginning _ _ hrecords =>
    rw [alarms, hrecords]
    rfl

theorem Noted.eq_iff_of_long {limit : UInt64} (ha : Noted limit c a l) (hb : Noted limit c b l')
    (hlong : ¬ a.Fits limit) (hlong' : ¬ b.Fits limit) : records l = records l' ↔
      a.opening.take limit.toNat = b.opening.take limit.toNat ∧ a.shown limit = b.shown limit := by
  cases ha with
  | command hfits => exact absurd hfits hlong
  | beginning _ hkept hrecords =>
    cases hb with
    | command hfits => exact absurd hfits hlong'
    | beginning _ hkept' hrecords' =>
      rw [hrecords, hrecords', List.singleton_inj, Record.oversized_inj, hkept, hkept',
        PassLine.opening_shown_inj]

/-- Two lines with a password come to a session, and both are dealt with.  If neither is too long and
their replies and what becomes of these are the same, then the command is noted in the same way, with
stars, and the warnings and errors are the same.  All else that is noted is then the same as well,
unless a guest is welcomed: then its password is in the log, and the log gets the same only for the
same password.  If both lines are too long, a warning is all that is noted, and it is the same if and
only if they begin alike: as far as the limit allows, with the same spelling of the verb and the same
first eleven characters of the password. -/
theorem passwords_unlogged_unless_too_long (ha : Comes ctx.lineLimit a.bytes incoming)
    (hb : Comes ctx.lineLimit b.bytes incoming')
    (hrun : (onIncoming ctx c incoming).Goes l (.done r))
    (hrun' : (onIncoming ctx c incoming').Goes l' (.done r')) :
    (a.Fits ctx.lineLimit → b.Fits ctx.lineLimit → fates l = fates l' →
      (records l).head? = some (.executed c.address (.pass "")) ∧
      (records l').head? = some (.executed c.address (.pass "")) ∧ alarms l = alarms l' ∧
      (records l = records l' ↔
        (c.username = none → Reply.loginSuccess ∈ (fates l).map Prod.fst → a.given = b.given))) ∧
    (¬ a.Fits ctx.lineLimit → ¬ b.Fits ctx.lineLimit →
      alarms l = records l ∧ alarms l' = records l' ∧
      (records l = records l' ↔
        a.opening.take ctx.lineLimit.toNat = b.opening.take ctx.lineLimit.toNat ∧
        a.shown ctx.lineLimit = b.shown ctx.lineLimit)) := by
  have hnoted := (onIncoming_noted ctx c ha).of_goes hrun
  have hnoted' := (onIncoming_noted ctx c hb).of_goes hrun'
  exact ⟨hnoted.of_fitting hnoted', fun hlong hlong' =>
    ⟨hnoted.alarms_of_long hlong, hnoted'.alarms_of_long hlong',
      hnoted.eq_iff_of_long hnoted' hlong hlong'⟩⟩

def limitedContext (limit : UInt64) : Context := ⟨{ maxCommandLength := limit }, "/", loopback⟩

def hunterLine : PassLine :=
  ⟨"PASS", by decide, by decide +kernel, encode "hunter2!\r", by decide +kernel⟩

def letmeinLine : PassLine :=
  ⟨"PASS", by decide, by decide +kernel, encode "letmein!", by decide +kernel⟩

/-- The one line comes in two reads, and the other one at the end of its connection. -/
def hunterReads : List Delivery := [.bytes (encode "PASS hun"), .bytes (encode "ter2!\r\nNOOP\r\n")]

def letmeinReads : List Delivery := [.bytes (encode "PASS letmein!")]

theorem comes_hunter {limit : UInt64} {left : List Delivery}
    (hread : read limit hunterReads = some (incoming, left)) :
    Comes limit hunterLine.bytes incoming := by
  have hsegments : segments hunterReads = [hunterLine.bytes ++ lineFeed :: encode "NOOP\r\n"] := by
    decide +kernel
  refine .ended (fun chunk hchunk => ?_) hsegments hread
  simp only [hunterReads, List.mem_cons, Delivery.bytes.injEq, List.not_mem_nil, or_false] at hchunk
  obtain rfl | rfl := hchunk <;> decide

theorem comes_letmein {limit : UInt64} {left : List Delivery}
    (hread : read limit letmeinReads = some (incoming, left)) :
    Comes limit letmeinLine.bytes incoming := by
  refine .last (fun chunk hchunk => ?_) (by decide +kernel) hread
  obtain rfl := Delivery.bytes.inj (List.mem_singleton.1 hchunk)
  decide

def isAnswered (code : Nat) : List (Nat × Except OsError Unit) → Bool
  | [(code', .ok ())] => code' == code
  | _ => false

theorem eq_of_isAnswered {code : Nat} {fs : List (Nat × Except OsError Unit)}
    (h : isAnswered code fs = true) : fs = [(code, .ok ())] := by
  unfold isAnswered at h
  split at h
  next => rw [beq_iff_eq.1 h]
  next => cases h

theorem goes_of_recite {code : Nat} {noted : List Record} {s : Scene}
    (h : (recite (onIncoming ctx c incoming) s).any (fun x =>
      isAnswered code (fates (said x.1)) && records (said x.1) == noted) = true) :
    ∃ l r, (onIncoming ctx c incoming).Goes l (.done r) ∧ fates l = [(code, .ok ())] ∧
      records l = noted := by
  obtain ⟨⟨τ, r, s'⟩, hrecite, htest⟩ := (Option.any_eq_true ..).1 h
  rw [Bool.and_eq_true, beq_iff_eq] at htest
  exact ⟨said τ, r, (traced_of_recite hrecite).goes, eq_of_isAnswered htest.1, htest.2⟩

/-- The two lines as they come within a limit that is wide enough. -/
theorem comes_both :
    Comes 1023 hunterLine.bytes (.line "PASS hunter2!") ∧
      Comes 1023 letmeinLine.bytes (.line "PASS letmein!") :=
  ⟨@comes_hunter _ 1023 [.bytes (encode "NOOP\r\n")] (by decide +kernel),
    @comes_letmein _ 1023 [] (by decide +kernel)⟩

/-- Two wrong passwords of one user cannot be told apart, two guests can, and two lines cannot where
only the verb is within the limit. -/
theorem passwords_unlogged_unless_too_long_for_alice :
    (∃ l r l' r',
      (onIncoming (limitedContext 1023) ((Client.connect loopback).beginLogin (some "alice"))
        (.line "PASS hunter2!")).Goes l (.done r) ∧
      (onIncoming (limitedContext 1023) ((Client.connect loopback).beginLogin (some "alice"))
        (.line "PASS letmein!")).Goes l' (.done r') ∧
      fates l = [(530, .ok ())] ∧ records l = records l') ∧
    (∃ l r l' r',
      (onIncoming (limitedContext 1023) ((Client.connect loopback).beginLogin none)
        (.line "PASS hunter2!")).Goes l (.done r) ∧
      (onIncoming (limitedContext 1023) ((Client.connect loopback).beginLogin none)
        (.line "PASS letmein!")).Goes l' (.done r') ∧
      fates l = [(230, .ok ())] ∧ alarms l = alarms l' ∧ records l ≠ records l') ∧
    ∃ l r l' r',
      (onIncoming (limitedContext 5) (.connect loopback) (.tooLong "PASS ")).Goes l (.done r) ∧
      (onIncoming (limitedContext 5) (.connect loopback) (.tooLong "PASS ")).Goes l' (.done r') ∧
      records l = [.oversized loopback "PASS "] ∧ records l = records l' := by
  obtain ⟨hhunter, hletmein⟩ := comes_both
  have hfits : hunterLine.Fits 1023 ∧ letmeinLine.Fits 1023 := by
    constructor <;> decide +kernel
  refine ⟨?_, ?_, ?_⟩
  · obtain ⟨l, r, hrun, hfates, -⟩ := @goes_of_recite (limitedContext 1023)
      ((Client.connect loopback).beginLogin (some "alice")) (.line "PASS hunter2!") 530
      [.executed loopback (.pass ""), .loginRefused loopback (.loginIncorrect "alice"),
        .commandFailed loopback (.pass "") (LoginError.loginIncorrect "alice").replyText]
      (Scene.start Tree.bare {}) (by decide +kernel)
    obtain ⟨l', r', hrun', hfates', -⟩ := @goes_of_recite (limitedContext 1023)
      ((Client.connect loopback).beginLogin (some "alice")) (.line "PASS letmein!") 530
      [.executed loopback (.pass ""), .loginRefused loopback (.loginIncorrect "alice"),
        .commandFailed loopback (.pass "") (LoginError.loginIncorrect "alice").replyText]
      (Scene.start Tree.bare {}) (by decide +kernel)
    refine ⟨l, r, l', r', hrun, hrun', hfates, ?_⟩
    obtain ⟨-, -, -, hsame⟩ := (passwords_unlogged_unless_too_long hhunter hletmein hrun hrun').1
      hfits.1 hfits.2 (hfates.trans hfates'.symm)
    exact hsame.2 fun hnone => by cases hnone
  · obtain ⟨l, r, hrun, hfates, -⟩ := @goes_of_recite (limitedContext 1023)
      ((Client.connect loopback).beginLogin none) (.line "PASS hunter2!") 230
      [.executed loopback (.pass ""), .loggedIn loopback "anonymous/hunter2!"]
      (Scene.start Tree.bare {}) (by decide +kernel)
    obtain ⟨l', r', hrun', hfates', -⟩ := @goes_of_recite (limitedContext 1023)
      ((Client.connect loopback).beginLogin none) (.line "PASS letmein!") 230
      [.executed loopback (.pass ""), .loggedIn loopback "anonymous/letmein!"]
      (Scene.start Tree.bare {}) (by decide +kernel)
    obtain ⟨-, -, halarms, hsame⟩ :=
      (passwords_unlogged_unless_too_long hhunter hletmein hrun hrun').1 hfits.1 hfits.2
        (hfates.trans hfates'.symm)
    refine ⟨l, r, l', r', hrun, hrun', hfates, halarms, fun heq => ?_⟩
    have hpasswords := hsame.1 heq rfl (by rw [hfates]; decide)
    exact absurd hpasswords (by decide +kernel)
  · obtain ⟨l, r, hrun, -, hrecords⟩ := @goes_of_recite (limitedContext 5) (.connect loopback)
      (.tooLong "PASS ") 500 [.oversized loopback "PASS "] (Scene.start Tree.bare {})
      (by decide +kernel)
    have hcomes := @comes_hunter (.tooLong "PASS ") 5 [.bytes (encode "NOOP\r\n")]
      (by decide +kernel)
    have hcomes' := @comes_letmein (.tooLong "PASS ") 5 [] (by decide +kernel)
    refine ⟨l, r, l, r, hrun, hrun, hrecords, ?_⟩
    obtain ⟨-, -, hsame⟩ := (passwords_unlogged_unless_too_long hcomes hcomes' hrun hrun).2
      (by decide +kernel) (by decide +kernel)
    exact hsame.2 ⟨by decide +kernel, by decide +kernel⟩

/-- Two lines that are too long by the same measure are answered alike, and the log shows of each
what its password begins with. -/
theorem password_shown_of_line_too_long :
    ({ maxCommandLength := 8 } : Settings).check = .ok () ∧
    ¬ hunterLine.Fits 8 ∧ ¬ letmeinLine.Fits 8 ∧ ∃ incoming incoming' l r l' r',
      Comes 8 hunterLine.bytes incoming ∧ Comes 8 letmeinLine.bytes incoming' ∧
      (onIncoming (limitedContext 8) (.connect loopback) incoming).Goes l (.done r) ∧
      (onIncoming (limitedContext 8) (.connect loopback) incoming').Goes l' (.done r') ∧
      fates l = fates l' ∧ alarms l = [.oversized loopback "PASS hun"] ∧
      alarms l' = [.oversized loopback "PASS let"] ∧ alarms l ≠ alarms l' := by
  obtain ⟨l, r, hrun, hfates, hrecords⟩ := @goes_of_recite (limitedContext 8) (.connect loopback)
    (.tooLong "PASS hun") 500 [.oversized loopback "PASS hun"] (Scene.start Tree.bare {})
    (by decide +kernel)
  obtain ⟨l', r', hrun', hfates', hrecords'⟩ := @goes_of_recite (limitedContext 8)
    (.connect loopback) (.tooLong "PASS let") 500 [.oversized loopback "PASS let"]
    (Scene.start Tree.bare {}) (by decide +kernel)
  have hcomes := @comes_hunter (.tooLong "PASS hun") 8 [.bytes (encode "NOOP\r\n")]
    (by decide +kernel)
  have hcomes' := @comes_letmein (.tooLong "PASS let") 8 [] (by decide +kernel)
  have halarms : alarms l = [.oversized loopback "PASS hun"] := by
    rw [alarms, hrecords]
    rfl
  have halarms' : alarms l' = [.oversized loopback "PASS let"] := by
    rw [alarms, hrecords']
    rfl
  refine ⟨rfl, by decide +kernel, by decide +kernel, _, _, l, r, l', r', hcomes, hcomes', hrun, hrun',
    hfates.trans hfates'.symm, halarms, halarms', ?_⟩
  rw [halarms, halarms', Ne, List.singleton_inj, Record.oversized_inj]
  decide +kernel

end Session

end FtpServer
