import FtpServer.Text.Lossy
import Mathlib.Algebra.Group.Nat.Defs

/-!
# Text that was written is read back

Every character is read from its own bytes, whatever follows them, so reading replaces nothing in
what was written as UTF-8.  Bytes below 128 stand only for the characters of their number, also where
the bytes were not written as text.
-/

namespace FtpServer.Text

def utf8 (cs : List Char) : Bytes := cs.flatMap String.utf8EncodeChar

theorem encode_eq (s : String) : encode s = utf8 s.toList := rfl

@[simp] theorem encode_ofList (cs : List Char) : encode (String.ofList cs) = utf8 cs := by
  rw [encode_eq, String.toList_ofList]

@[simp] theorem utf8_nil : utf8 [] = [] := rfl

@[simp] theorem utf8_append (cs ds : List Char) : utf8 (cs ++ ds) = utf8 cs ++ utf8 ds :=
  List.flatMap_append ..

@[simp] theorem utf8_cons (c : Char) (cs : List Char) :
    utf8 (c :: cs) = String.utf8EncodeChar c ++ utf8 cs := List.flatMap_cons ..

namespace Lossy

variable {v x value : Nat} {low high : UInt8} {rest : Bytes}

theorem start_one (h : v < 0x80) : start (UInt8.ofNat v) = ([Char.ofNat v], none) := by
  have hv : (UInt8.ofNat v).toNat = v := by
    simp only [UInt8.toNat_ofNat']
    omega
  simp only [start, UInt8.lt_iff_toNat_lt, UInt8.reduceToNat, hv, if_pos h]

theorem start_two (h : 0x80 ≤ v) (h' : v < 0x800) :
    start (UInt8.ofNat (v / 64 % 32 + 192)) = ([], some ⟨v / 64, 0, 0x80, 0xBF⟩) := by
  have hv : (UInt8.ofNat (v / 64 % 32 + 192)).toNat = v / 64 + 192 := by
    simp only [UInt8.toNat_ofNat']
    omega
  simp only [start, UInt8.lt_iff_toNat_lt, UInt8.reduceToNat, hv]
  rw [if_neg (by omega), if_neg (by omega), if_pos (by omega), Nat.add_sub_cancel]

theorem start_three (h : v < 0x10000) :
    start (UInt8.ofNat (v / 4096 % 16 + 224)) = ([], some ⟨v / 4096, 1,
      if v / 4096 = 0 then 0xA0 else 0x80, if v / 4096 = 13 then 0x9F else 0xBF⟩) := by
  have hv : (UInt8.ofNat (v / 4096 % 16 + 224)).toNat = v / 4096 + 224 := by
    simp only [UInt8.toNat_ofNat']
    omega
  simp only [start, UInt8.lt_iff_toNat_lt, ← UInt8.toNat_inj, UInt8.reduceToNat, hv]
  rw [if_neg (by omega), if_neg (by omega), if_neg (by omega), if_pos (by omega)]
  simp

theorem start_four (h : v < 0x110000) :
    start (UInt8.ofNat (v / 262144 % 8 + 240)) = ([], some ⟨v / 262144, 2,
      if v / 262144 = 0 then 0x90 else 0x80, if v / 262144 = 4 then 0x8F else 0xBF⟩) := by
  have hv : (UInt8.ofNat (v / 262144 % 8 + 240)).toNat = v / 262144 + 240 := by
    simp only [UInt8.toNat_ofNat']
    omega
  simp only [start, UInt8.lt_iff_toNat_lt, ← UInt8.toNat_inj, UInt8.reduceToNat, hv]
  rw [if_neg (by omega), if_neg (by omega), if_neg (by omega), if_neg (by omega), if_pos (by omega)]
  simp

/-- A byte that continues a character, if it lies within the bounds of the byte before it. -/
theorem step_continues (n : Nat) (hlow : low.toNat ≤ x % 64 + 128) (hhigh : x % 64 + 128 ≤ high.toNat) :
    step (some ⟨value, n, low, high⟩) (UInt8.ofNat (x % 64 + 128)) =
      match n with
      | 0 => ([Char.ofNat (value * 64 + x % 64)], none)
      | n + 1 => ([], some ⟨value * 64 + x % 64, n, 0x80, 0xBF⟩) := by
  have hx : (UInt8.ofNat (x % 64 + 128)).toNat = x % 64 + 128 := by
    simp only [UInt8.toNat_ofNat']
    omega
  have hbounds : low ≤ UInt8.ofNat (x % 64 + 128) ∧ UInt8.ofNat (x % 64 + 128) ≤ high := by
    simp only [UInt8.le_iff_toNat_le, hx]
    exact ⟨hlow, hhigh⟩
  simp only [step, hbounds, hx]
  cases n <;> simp

theorem run_last (hlow : low.toNat ≤ x % 64 + 128) (hhigh : x % 64 + 128 ≤ high.toNat) :
    run (some ⟨value, 0, low, high⟩) (UInt8.ofNat (x % 64 + 128) :: rest) =
      Char.ofNat (value * 64 + x % 64) :: run none rest := by
  rw [run_cons, step_continues 0 hlow hhigh]
  rfl

theorem run_more (n : Nat) (hlow : low.toNat ≤ x % 64 + 128) (hhigh : x % 64 + 128 ≤ high.toNat) :
    run (some ⟨value, n + 1, low, high⟩) (UInt8.ofNat (x % 64 + 128) :: rest) =
      run (some ⟨value * 64 + x % 64, n, 0x80, 0xBF⟩) rest := by
  rw [run_cons, step_continues (n + 1) hlow hhigh]
  rfl

theorem run_start {b : UInt8} {cs : List Char} {opened : Option Unfinished}
    (h : start b = (cs, opened)) : run none (b :: rest) = cs ++ run opened rest := by
  rw [run_cons, step, h]

theorem run_char (c : Char) (rest : Bytes) :
    run none (String.utf8EncodeChar c ++ rest) = c :: run none rest := by
  have hvalid : c.toNat < 0xD800 ∨ 0xDFFF < c.toNat ∧ c.toNat < 0x110000 := c.valid
  have hc : Char.ofNat c.toNat = c := Char.ofNat_toNat c
  have hval : c.val.toNat = c.toNat := rfl
  unfold String.utf8EncodeChar
  dsimp only
  rw [hval]
  generalize c.toNat = v at hvalid hc
  have h80 : (0x80 : UInt8).toNat = 128 := rfl
  have hBF : (0xBF : UInt8).toNat = 191 := rfl
  split
  next => rw [List.singleton_append, run_start (start_one (by omega)), hc, List.singleton_append]
  next =>
    split
    next =>
      have hvalue : v / 64 * 64 + v % 64 = v := by omega
      simp only [List.cons_append, List.nil_append]
      rw [run_start (start_two (by omega) (by omega)), List.nil_append, run_last (by omega) (by omega),
        hvalue, hc]
    next =>
      split
      next =>
        have hvalue : (v / 4096 * 64 + v / 64 % 64) * 64 + v % 64 = v := by omega
        have hlow : (if v / 4096 = 0 then (0xA0 : UInt8) else 0x80).toNat ≤ v / 64 % 64 + 128 := by
          split <;> simp only [UInt8.reduceToNat] <;> omega
        have hhigh : v / 64 % 64 + 128 ≤ (if v / 4096 = 13 then (0x9F : UInt8) else 0xBF).toNat := by
          split <;> simp only [UInt8.reduceToNat] <;> omega
        simp only [List.cons_append, List.nil_append]
        rw [run_start (start_three (by omega)), List.nil_append, run_more 0 hlow hhigh,
          run_last (by omega) (by omega), hvalue, hc]
      next =>
        have hvalue : ((v / 262144 * 64 + v / 4096 % 64) * 64 + v / 64 % 64) * 64 + v % 64 = v := by
          omega
        have hlow : (if v / 262144 = 0 then (0x90 : UInt8) else 0x80).toNat ≤ v / 4096 % 64 + 128 := by
          split <;> simp only [UInt8.reduceToNat] <;> omega
        have hhigh : v / 4096 % 64 + 128 ≤ (if v / 262144 = 4 then (0x8F : UInt8) else 0xBF).toNat := by
          split <;> simp only [UInt8.reduceToNat] <;> omega
        simp only [List.cons_append, List.nil_append]
        rw [run_start (start_four (by omega)), List.nil_append, run_more 1 hlow hhigh,
          run_more 0 (by omega) (by omega), run_last (by omega) (by omega), hvalue, hc]

/-- Characters are read from their own bytes, whatever comes behind them. -/
theorem run_utf8_append (cs : List Char) (rest : Bytes) :
    run none (utf8 cs ++ rest) = cs ++ run none rest := by
  induction cs with
  | nil => rfl
  | cons c cs ih => rw [utf8_cons, List.append_assoc, run_char, ih, List.cons_append]

theorem run_utf8 (cs : List Char) : run none (utf8 cs) = cs := by
  rw [← List.append_nil (utf8 cs), run_utf8_append, run_nil, List.append_nil]

end Lossy

theorem decode_utf8_append (cs : List Char) (rest : Bytes) :
    decode (utf8 cs ++ rest) = String.ofList cs ++ decode rest := by
  rw [decode, Lossy.run_utf8_append, String.ofList_append, decode]

@[simp] theorem decode_utf8 (cs : List Char) : decode (utf8 cs) = String.ofList cs := by
  rw [decode, Lossy.run_utf8]

@[simp] theorem decode_encode (s : String) : decode (encode s) = s := by
  rw [encode_eq, decode_utf8, String.ofList_toList]

theorem utf8EncodeChar_ascii {c : Char} (h : c.toNat < 128) :
    String.utf8EncodeChar c = [UInt8.ofNat c.toNat] :=
  String.utf8EncodeChar_eq_singleton
    (Char.utf8Size_eq_one_iff.2 (UInt32.le_iff_toNat_le.2 (Nat.le_of_lt_succ h)))

theorem utf8_ascii {cs : List Char} (h : ∀ c ∈ cs, c.toNat < 128) :
    utf8 cs = cs.map fun c => UInt8.ofNat c.toNat := by
  induction cs with
  | nil => rfl
  | cons c cs ih =>
    obtain ⟨hc, hcs⟩ := List.forall_mem_cons.1 h
    rw [utf8_cons, utf8EncodeChar_ascii hc, ih hcs, List.singleton_append, List.map_cons]

theorem length_utf8 {cs : List Char} (h : ∀ c ∈ cs, c.toNat < 128) : (utf8 cs).length = cs.length := by
  rw [utf8_ascii h, List.length_map]

theorem take_utf8 {cs : List Char} (h : ∀ c ∈ cs, c.toNat < 128) (n : Nat) :
    (utf8 cs).take n = utf8 (cs.take n) := by
  rw [utf8_ascii h, utf8_ascii fun c hc => h c (List.mem_of_mem_take hc), List.map_take]

theorem le_of_mem_utf8EncodeChar {c : Char} (h : 128 ≤ c.toNat) :
    ∀ b ∈ String.utf8EncodeChar c, 128 ≤ b.toNat := by
  have hval : c.val.toNat = c.toNat := rfl
  unfold String.utf8EncodeChar
  dsimp only
  rw [hval, if_neg (by omega)]
  generalize c.toNat = v
  split
  next => simp; omega
  next => split <;> simp <;> omega

theorem mem_utf8 {c : Char} (hc : c.toNat < 128) (cs : List Char) :
    UInt8.ofNat c.toNat ∈ utf8 cs ↔ c ∈ cs := by
  have hnumber : (UInt8.ofNat c.toNat).toNat = c.toNat := by
    simp only [UInt8.toNat_ofNat']
    omega
  constructor
  · intro h
    obtain ⟨d, hd, hbyte⟩ := List.mem_flatMap.1 h
    by_cases hascii : d.toNat < 128
    · rw [utf8EncodeChar_ascii hascii, List.mem_singleton, ← UInt8.toNat_inj, hnumber] at hbyte
      have hsame : c.toNat = d.toNat := by
        rw [hbyte, UInt8.toNat_ofNat']
        omega
      rwa [Char.toNat_inj.1 hsame]
    · have hhigh := le_of_mem_utf8EncodeChar (Nat.le_of_not_lt hascii) _ hbyte
      omega
  · intro h
    exact List.mem_flatMap.2 ⟨c, h, by rw [utf8EncodeChar_ascii hc]; exact List.mem_singleton_self _⟩

namespace Lossy

variable {c : Char} {b : UInt8} {u : Unfinished} {bytes : Bytes} {opened : Option Unfinished}

/-- Whichever bytes complete the character, its number is at least 128. -/
def Unfinished.IsWide (u : Unfinished) : Prop :=
  128 ≤ (u.value * 64 + (u.low.toNat - 128)) * 64 ^ u.missing

/-- A number of 128 or more is that of no small character, if it is one of a character at all. -/
theorem toNat_ofNat_wide {n : Nat} (h : 128 ≤ n) :
    (Char.ofNat n).toNat = 0 ∨ 128 ≤ (Char.ofNat n).toNat := by
  by_cases hvalid : n.isValidChar
  · right
    rw [Char.ofNat, dif_pos hvalid]
    exact h
  · left
    rw [Char.ofNat, dif_neg hvalid]
    rfl

theorem isWide_of_start (h : (start b).2 = some u) : u.IsWide := by
  simp only [start, UInt8.lt_iff_toNat_lt, ← UInt8.toNat_inj, UInt8.reduceToNat] at h
  unfold Unfinished.IsWide
  split at h
  next => cases h
  next =>
    split at h
    next => cases h
    next =>
      split at h
      next =>
        obtain rfl := Option.some.inj h
        simp only [UInt8.reduceToNat]
        omega
      next =>
        split at h
        next =>
          obtain rfl := Option.some.inj h
          dsimp only
          split <;> simp only [UInt8.reduceToNat] <;> omega
        next =>
          split at h
          next =>
            obtain rfl := Option.some.inj h
            dsimp only
            split <;> simp only [UInt8.reduceToNat] <;> omega
          next => cases h

/-- A first byte of 128 or more settles nothing, or that it cannot be read. -/
theorem start_high (h : ¬ b < 0x80) : (start b).1 = [] ∨ (start b).1 = [replacement] := by
  grind [start]

/-- A small character is settled by the byte of its number alone. -/
theorem eq_of_mem_start (h : c ∈ (start b).1) (hc : c.toNat < 128) : b = UInt8.ofNat c.toNat := by
  by_cases hb : b < 0x80
  · have hb' : b.toNat < 128 := UInt8.lt_iff_toNat_lt.1 hb
    have hvalid : b.toNat.isValidChar := .inl (by omega)
    have hnumber : (Char.ofNat b.toNat).toNat = b.toNat := by
      rw [Char.ofNat, dif_pos hvalid]
      rfl
    rw [start, if_pos hb] at h
    rw [List.mem_singleton.1 h, hnumber, UInt8.ofNat_toNat]
  · have hreplacement : ¬ replacement.toNat < 128 := by decide
    rcases start_high hb with hnothing | hreplaced
    · simp [hnothing] at h
    · rw [hreplaced, List.mem_singleton] at h
      exact absurd (h ▸ hc) hreplacement

theorem isWide_of_step (hopened : ∀ u, opened = some u → u.IsWide)
    (h : (step opened b).2 = some u) : u.IsWide := by
  cases opened with
  | none => exact isWide_of_start h
  | some v =>
    have hv := hopened v rfl
    simp only [step] at h
    split at h
    next hbounds =>
      have hlow : v.low.toNat ≤ b.toNat := UInt8.le_iff_toNat_le.1 hbounds.1
      split at h
      next => cases h
      next n hmissing =>
        obtain rfl := Option.some.inj h
        have h80 : (0x80 : UInt8).toNat = 128 := rfl
        rw [Unfinished.IsWide, hmissing, Nat.pow_succ, Nat.mul_comm (64 ^ n)] at hv
        rw [Unfinished.IsWide, h80, Nat.sub_self, Nat.add_zero, Nat.mul_assoc]
        have hle : v.value * 64 + (v.low.toNat - 128) ≤ v.value * 64 + (b.toNat - 128) := by omega
        exact Nat.le_trans hv (Nat.mul_le_mul_right _ hle)
    next => exact isWide_of_start h

theorem eq_of_mem_step (hopened : ∀ u, opened = some u → u.IsWide) (h : c ∈ (step opened b).1)
    (hpos : c.toNat ≠ 0) (hc : c.toNat < 128) : b = UInt8.ofNat c.toNat := by
  cases opened with
  | none => exact eq_of_mem_start h hc
  | some v =>
    have hv := hopened v rfl
    simp only [step] at h
    split at h
    next hbounds =>
      have hlow : v.low.toNat ≤ b.toNat := UInt8.le_iff_toNat_le.1 hbounds.1
      split at h
      next hmissing =>
        rw [Unfinished.IsWide, hmissing, Nat.pow_zero, Nat.mul_one] at hv
        rw [List.mem_singleton.1 h] at hpos hc
        have hwide : 128 ≤ v.value * 64 + (b.toNat - 128) := by omega
        rcases toNat_ofNat_wide hwide with hnone | hhigh
        · exact absurd hnone hpos
        · omega
      next => cases h
    next =>
      rcases List.mem_cons.1 h with rfl | h
      · exact absurd hc (by decide)
      · exact eq_of_mem_start h hc

theorem mem_of_mem_run (hopened : ∀ u, opened = some u → u.IsWide) (hpos : c.toNat ≠ 0)
    (hc : c.toNat < 128) (h : c ∈ run opened bytes) : UInt8.ofNat c.toNat ∈ bytes := by
  induction bytes generalizing opened with
  | nil =>
    have hreplaced : c ∈ [replacement] := by
      unfold run at h
      split at h
      next => exact h
      next => cases h
    rw [List.mem_singleton.1 hreplaced] at hc
    exact absurd hc (by decide)
  | cons b rest ih =>
    rw [run_cons, List.mem_append] at h
    rcases h with h | h
    · rw [eq_of_mem_step hopened h hpos hc]
      exact List.mem_cons_self
    · exact List.mem_cons_of_mem _ (ih (fun u hu => isWide_of_step hopened hu) h)

end Lossy

theorem mem_of_mem_decode {c : Char} {bytes : Bytes} (hpos : c.toNat ≠ 0) (hc : c.toNat < 128)
    (h : c ∈ (decode bytes).toList) : UInt8.ofNat c.toNat ∈ bytes := by
  rw [decode, String.toList_ofList] at h
  exact Lossy.mem_of_mem_run (by simp) hpos hc h

end FtpServer.Text
