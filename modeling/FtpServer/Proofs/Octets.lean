import FtpServer.Proofs.HandledCommands
import Mathlib.Data.List.Forall2

/-!
# Addresses in six octets

Every address has one way in which it is written and many in which it is read: numbers may have
blanks around them, a plus sign and leading zeros.  Both ways lead to the same address, and `PORT`
with anything else is refused.
-/

namespace FtpServer.HostPort

open Text Program Dialogue Session

/-- A text for a number: digits behind a plus sign or none, with blanks around them. -/
inductive Spells (part : List Char) (n : Nat) : Prop
  | intro (before sign ds after : List Char) (hpart : part = before ++ (sign ++ ds) ++ after)
      (hbefore : ∀ c ∈ before, isBlank c = true) (hafter : ∀ c ∈ after, isBlank c = true)
      (hsign : sign = [] ∨ sign = ['+']) (hne : ds ≠ []) (hdigits : ∀ c ∈ ds, c.isDigit = true)
      (hvalue : Nat.ofDigitChars 10 ds 0 = n)

/-- Six octets between commas: four of the address, and two of the port. -/
inductive Denotes (text : String) (address : SocketV4) : Prop
  | intro (a b c d hi lo : List Char) (high low : Nat)
      (htext : text.toList = [','].intercalate [a, b, c, d, hi, lo])
      (ha : Spells a address.ip.a.toNat) (hb : Spells b address.ip.b.toNat)
      (hc : Spells c address.ip.c.toNat) (hd : Spells d address.ip.d.toNat)
      (hhi : Spells hi high) (hlo : Spells lo low) (hhigh : high < 256) (hlow : low < 256)
      (hport : address.port.toNat = high * 256 + low)

variable {part : List Char} {n : Nat} {text : String} {address : SocketV4}

theorem isBlank_of_isDigit {c : Char} (h : c.isDigit = true) : isBlank c = false := by
  simp only [Char.isDigit, Bool.and_eq_true, decide_eq_true_eq, ge_iff_le,
    UInt32.le_iff_toNat_le] at h
  have h0 : '0'.val.toNat = 48 := rfl
  have h9 : '9'.val.toNat = 57 := rfl
  simp only [isBlank, Bool.or_eq_false_iff, Bool.and_eq_false_iff, decide_eq_false_iff_not,
    beq_eq_false_iff_ne, ne_eq, UInt32.le_iff_toNat_le, ← UInt32.toNat_inj, UInt32.reduceToNat]
  omega

theorem plain_of_spelled {sign ds : List Char} {c : Char} (hsign : sign = [] ∨ sign = ['+'])
    (hdigits : ∀ c ∈ ds, c.isDigit = true) (hc : c ∈ sign ++ ds) :
    isBlank c = false ∧ c ≠ ',' := by
  rcases List.mem_append.1 hc with hc | hc
  · rcases hsign with rfl | rfl
    · cases hc
    · obtain rfl := List.mem_singleton.1 hc
      decide
  · have hdigit := hdigits c hc
    refine ⟨isBlank_of_isDigit hdigit, ?_⟩
    rintro rfl
    cases hdigit

theorem Spells.not_mem (h : Spells part n) : ',' ∉ part := by
  obtain ⟨before, sign, ds, after, rfl, hbefore, hafter, hsign, -, hdigits, -⟩ := h
  intro hmem
  rcases List.mem_append.1 hmem with hmem | hmem
  · rcases List.mem_append.1 hmem with hmem | hmem
    · cases hbefore _ hmem
    · exact (plain_of_spelled hsign hdigits hmem).2 rfl
  · cases hafter _ hmem

theorem spells_digits (n : Nat) : Spells (digits n) n :=
  .intro [] [] (digits n) [] (by simp) (by simp) (by simp) (.inl rfl) (digits_ne_nil n)
    (fun _ => isDigit_of_mem_digits) Nat.ofDigitChars_ten_toDigits

theorem octet?_eq_some_iff : octet? part = some n ↔ Spells part n ∧ n < 256 := by
  rw [octet?, Option.filter_eq_some_iff, decide_eq_true_eq]
  refine and_congr_left fun _ => ?_
  constructor
  · intro hread
    obtain ⟨sign, ds, htrim, hsign, hnat⟩ := readUnsigned_eq_some_iff.1 hread
    obtain ⟨before, after, hpart, hbefore, hafter⟩ := exists_trim part
    obtain ⟨hne, hdigits, hvalue⟩ := readNat_eq_some_iff.1 hnat
    exact .intro before sign ds after (htrim ▸ hpart) hbefore hafter hsign hne hdigits
      ((valueOf_eq ds).symm.trans hvalue)
  · rintro ⟨before, sign, ds, after, rfl, hbefore, hafter, hsign, hne, hdigits, rfl⟩
    have htrim : trim (before ++ (sign ++ ds) ++ after) = sign ++ ds :=
      trim_between hbefore hafter (by simp [hne]) fun c hc => (plain_of_spelled hsign hdigits hc).1
    rw [htrim]
    exact readUnsigned_eq_some_iff.2
      ⟨sign, ds, rfl, hsign, readNat_eq_some_iff.2 ⟨hne, hdigits, valueOf_eq ds⟩⟩

theorem mapM_eq_some_iff {α β : Type} {f : α → Option β} {xs : List α} {ys : List β} :
    xs.mapM f = some ys ↔ List.Forall₂ (fun x y => f x = some y) xs ys := by
  induction xs generalizing ys with
  | nil => simp [eq_comm]
  | cons x xs ih =>
    cases ys with
    | nil => simp [Option.bind_eq_some_iff]
    | cons y ys => simp [Option.bind_eq_some_iff, ih, and_comm]

/-- Six octets are those of an address, and none of them is cut down. -/
theorem denotes_ofNat {a b c d hi lo : List Char} {na nb nc nd high low : Nat}
    (htext : text.toList = [','].intercalate [a, b, c, d, hi, lo])
    (ha : Spells a na ∧ na < 256) (hb : Spells b nb ∧ nb < 256) (hc : Spells c nc ∧ nc < 256)
    (hd : Spells d nd ∧ nd < 256) (hhi : Spells hi high ∧ high < 256)
    (hlo : Spells lo low ∧ low < 256) :
    Denotes text ⟨⟨UInt8.ofNat na, UInt8.ofNat nb, UInt8.ofNat nc, UInt8.ofNat nd⟩,
      UInt16.ofNat (high * 256 + low)⟩ := by
  have hbyte {part : List Char} {n : Nat} (h : Spells part n ∧ n < 256) :
      Spells part (UInt8.ofNat n).toNat := by
    rw [UInt8.toNat_ofNat', Nat.mod_eq_of_lt h.2]
    exact h.1
  refine .intro a b c d hi lo high low htext (hbyte ha) (hbyte hb) (hbyte hc) (hbyte hd) hhi.1
    hlo.1 hhi.2 hlo.2 ?_
  have := hhi.2
  have := hlo.2
  rw [UInt16.toNat_ofNat', Nat.mod_eq_of_lt (by omega)]

theorem decode?_eq_some_iff : decode? text = some address ↔ Denotes text address := by
  constructor
  · intro h
    unfold decode? at h
    split at h
    next na nb nc nd high low hoctets =>
      have hparts := mapM_eq_some_iff.1 hoctets
      simp only [octet?_eq_some_iff] at hparts
      have htext := join_split ',' text.toList
      rw [join_eq_intercalate] at htext
      generalize split ',' text.toList = parts at hparts htext
      obtain _ | ⟨ha, _ | ⟨hb, _ | ⟨hc, _ | ⟨hd, _ | ⟨hhi, _ | ⟨hlo, _ | _⟩⟩⟩⟩⟩⟩ := hparts
      exact Option.some.inj h ▸ denotes_ofNat htext.symm ha hb hc hd hhi hlo
    next => cases h
  · rintro ⟨a, b, c, d, hi, lo, high, low, htext, ha, hb, hc, hd, hhi, hlo, hhigh, hlow, hport⟩
    have hsplit : split ',' text.toList = [a, b, c, d, hi, lo] := by
      rw [htext, ← join_eq_intercalate]
      refine split_join (List.cons_ne_nil _ _) ?_
      simp [ha.not_mem, hb.not_mem, hc.not_mem, hd.not_mem, hhi.not_mem, hlo.not_mem]
    have hoctets : octets? text.toList = some [address.ip.a.toNat, address.ip.b.toNat,
        address.ip.c.toNat, address.ip.d.toNat, high, low] := by
      rw [octets?, hsplit, mapM_eq_some_iff]
      have hread {part : List Char} {n : Nat} (h : Spells part n) (hn : n < 256) :
          octet? part = some n := octet?_eq_some_iff.2 ⟨h, hn⟩
      exact .cons (hread ha (UInt8.toNat_lt _)) <| .cons (hread hb (UInt8.toNat_lt _)) <|
        .cons (hread hc (UInt8.toNat_lt _)) <| .cons (hread hd (UInt8.toNat_lt _)) <|
        .cons (hread hhi hhigh) <| .cons (hread hlo hlow) .nil
    have hport' : UInt16.ofNat (high * 256 + low) = address.port := by
      rw [← hport, UInt16.ofNat_toNat]
    simp only [decode?, hoctets, UInt8.ofNat_toNat, hport']

def octets (address : SocketV4) : List Nat :=
  [address.ip.a.toNat, address.ip.b.toNat, address.ip.c.toNat, address.ip.d.toNat,
    address.port.toNat / 256, address.port.toNat % 256]

theorem lt_of_mem_octets (h : n ∈ octets address) : n < 256 := by
  have hport := address.port.toNat_lt
  simp only [octets, List.mem_cons, List.not_mem_nil, or_false] at h
  rcases h with rfl | rfl | rfl | rfl | rfl | rfl
  · exact UInt8.toNat_lt _
  · exact UInt8.toNat_lt _
  · exact UInt8.toNat_lt _
  · exact UInt8.toNat_lt _
  · omega
  · omega

theorem toList_encode (address : SocketV4) :
    (encode address).toList = [','].intercalate ((octets address).map digits) := by
  rw [encode, String.toList_ofList, encodeChars, join_eq_intercalate]
  rfl

theorem encode_eq (address : SocketV4) :
    encode address = ",".intercalate ((octets address).map Nat.repr) := by
  have hdigits : String.toList ∘ Nat.repr = digits := funext fun n => Nat.toList_repr
  rw [← String.toList_inj, String.toList_intercalate, toList_encode, List.map_map, hdigits]
  rfl

theorem decode_encode (address : SocketV4) : decode? (encode address) = some address := by
  have hhigh : address.port.toNat / 256 < 256 := by
    have := address.port.toNat_lt
    omega
  exact decode?_eq_some_iff.2 <| .intro _ _ _ _ _ _ (address.port.toNat / 256)
    (address.port.toNat % 256) (toList_encode address) (spells_digits _) (spells_digits _)
    (spells_digits _) (spells_digits _) (spells_digits _) (spells_digits _) hhigh
    (Nat.mod_lt _ (by decide)) (Nat.div_add_mod' _ _).symm

/-- What is read has six parts with an octet in each, whatever the octets are. -/
theorem isSome_decode?_iff : (∃ address, decode? text = some address) ↔
    ∃ parts, text.toList = [','].intercalate parts ∧ parts.length = 6 ∧
      ∀ part ∈ parts, ∃ n < 256, Spells part n := by
  simp only [decode?_eq_some_iff]
  constructor
  · rintro ⟨address, a, b, c, d, hi, lo, high, low, htext, ha, hb, hc, hd, hhi, hlo, hhigh, hlow, -⟩
    refine ⟨_, htext, rfl, ?_⟩
    simp only [List.forall_mem_cons]
    exact ⟨⟨_, UInt8.toNat_lt _, ha⟩, ⟨_, UInt8.toNat_lt _, hb⟩, ⟨_, UInt8.toNat_lt _, hc⟩,
      ⟨_, UInt8.toNat_lt _, hd⟩, ⟨_, hhigh, hhi⟩, ⟨_, hlow, hlo⟩, by simp⟩
  · rintro ⟨parts, htext, hlength, hparts⟩
    match parts, hlength with
    | [a, b, c, d, hi, lo], _ =>
      simp only [List.forall_mem_cons] at hparts
      obtain ⟨⟨na, hna, ha⟩, ⟨nb, hnb, hb⟩, ⟨nc, hnc, hc⟩, ⟨nd, hnd, hd⟩, ⟨high, hhigh, hhi⟩,
        ⟨low, hlow, hlo⟩, -⟩ := hparts
      exact ⟨_, denotes_ofNat htext ⟨ha, hna⟩ ⟨hb, hnb⟩ ⟨hc, hnc⟩ ⟨hd, hnd⟩ ⟨hhi, hhigh⟩ ⟨hlo, hlow⟩⟩

/-- `PORT` with an argument that is no address: unless a transfer is in progress, the session notes
what it could not read, and refuses. -/
inductive Rejects (c : Client) (text : String) : Transcript Request.Answer → Client × Outcome → Prop
  | busy {l : Transcript Request.Answer} {c' : Client} (hbusy : ⟨.isInProgress, true⟩ ∈ l) :
      Rejects c text l (c', busy)
  | rejected {l : Transcript Request.Answer} {c' : Client}
      (hnoted : ⟨.note (.portRejected c.address (.invalidPortArgument text)), ()⟩ ∈ l) :
      Rejects c text l (c', .failure 501 "Illegal PORT command.")

theorem onPort_rejects (c : Client) (h : decode? text = none) :
    (onPort c text).Yields (Rejects c text) := by
  refine gate_yields (fun l c' hl => .busy (by simp)) fun l c' hl => ?_
  rw [h]
  exact Yields.question fun _ => Rejects.rejected <| by
    rw [← hl.address]
    exact List.mem_append_right l (List.mem_cons_of_mem _ List.mem_cons_self)

/-- Every address is read from what it is written as: six decimal numbers below 256.  Read is what
has six parts with an octet in each, and the octets are those of the address; how they are spelled is
not looked at, so an address that was read can be written instead.  Whatever else is given to `PORT`
is refused, and the refusal names it. -/
theorem decode_spellings :
    (∀ address, decode? (encode address) = some address) ∧
    (∀ address, ∃ ns : List Nat, ns.length = 6 ∧ (∀ n ∈ ns, n < 256) ∧
      encode address = ",".intercalate (ns.map Nat.repr)) ∧
    (∀ text, (∃ address, decode? text = some address) ↔
      ∃ parts, text.toList = [','].intercalate parts ∧ parts.length = 6 ∧
        ∀ part ∈ parts, ∃ n < 256, Spells part n) ∧
    (∀ text address, decode? text = some address ↔ Denotes text address) ∧
    (∀ text address, decode? text = some address → decode? (encode address) = decode? text) ∧
    ∀ text c, decode? text = none → (onPort c text).Yields (Rejects c text) :=
  ⟨decode_encode, fun address => ⟨octets address, rfl, fun _ => lt_of_mem_octets, encode_eq address⟩,
    fun _ => isSome_decode?_iff, fun _ _ => decode?_eq_some_iff,
    fun _ address h => (decode_encode address).trans h.symm, fun _ c h => onPort_rejects c h⟩

/-- Blanks, a plus sign and leading zeros make no difference. -/
theorem decode_spellings_of_the_last_port :
    decode? " +010,1, 002,3\t,00255,\u00a0255" = some ⟨⟨10, 1, 2, 3⟩, 65535⟩ ∧
      decode? (encode ⟨⟨10, 1, 2, 3⟩, 65535⟩) = some ⟨⟨10, 1, 2, 3⟩, 65535⟩ := by
  have hread : decode? " +010,1, 002,3\t,00255,\u00a0255" = some ⟨⟨10, 1, 2, 3⟩, 65535⟩ := by decide
  obtain ⟨-, -, -, -, hagain, -⟩ := decode_spellings
  exact ⟨hread, (hagain _ _ hread).trans hread⟩

end FtpServer.HostPort
