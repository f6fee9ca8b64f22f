import FtpServer.Text.Quoted
import FtpServer.Text.Split
import Mathlib.Data.List.Basic

/-!
# What is quoted can be told

No character's escape begins like the escape of another one, so a text between quotes stands for one
text only: whoever sees the one knows the other.
-/

namespace FtpServer.Text

variable {c d : Char} {cs ds rest rest' : List Char}

theorem digitChar_inj {m n : Nat} (hm : m < 16) (hn : n < 16)
    (h : Nat.digitChar m = Nat.digitChar n) : m = n := by
  have hall : ∀ m < 16, ∀ n < 16, Nat.digitChar m = Nat.digitChar n → m = n := by decide
  exact hall m hm n hn h

theorem hexNumber_eq (n : Nat) : hexNumber n =
    if n < 16 then [Nat.digitChar n] else hexNumber (n / 16) ++ [Nat.digitChar (n % 16)] :=
  Nat.toDigits_eq_if (by decide)

theorem hexNumber_injective : Function.Injective hexNumber := by
  have hlonger (n : Nat) (c d : Char) : [c] ≠ hexNumber n ++ [d] := by
    intro h
    have hpos : 0 < (hexNumber n).length := Nat.length_toDigits_pos
    have hlength := congrArg List.length h
    simp only [List.length_append, List.length_singleton] at hlength
    omega
  intro m
  induction m using Nat.strongRecOn with
  | ind m ih =>
    intro n h
    rw [hexNumber_eq m, hexNumber_eq n] at h
    split at h
    next hm =>
      split at h
      next hn => exact digitChar_inj hm hn (List.singleton_inj.1 h)
      next => exact absurd h (hlonger _ _ _)
    next hm =>
      split at h
      next => exact absurd h.symm (hlonger _ _ _)
      next hn =>
        obtain ⟨hhigh, hlow⟩ := List.append_inj' h rfl
        have hdiv := ih (m / 16) (by omega) hhigh
        have hmod := digitChar_inj (Nat.mod_lt m (by decide)) (Nat.mod_lt n (by decide))
          (List.singleton_inj.1 hlow)
        omega

theorem brace_not_mem_hexNumber (n : Nat) : '\x7d' ∉ hexNumber n := by
  have hdigit : ∀ d < 16, '\x7d' ≠ Nat.digitChar d := by decide
  induction n using Nat.strongRecOn with
  | ind n ih =>
    rw [hexNumber_eq]
    split
    next hn => simp [hdigit n hn]
    next hn => simp [ih (n / 16) (by omega), hdigit (n % 16) (Nat.mod_lt n (by decide))]

/-- A number tells its character, whatever follows behind the brace. -/
theorem numbered_inj
    (h : hexNumber c.toNat ++ '\x7d' :: rest = hexNumber d.toNat ++ '\x7d' :: rest') : c = d := by
  have hsplit := congrArg (split '\x7d') h
  rw [split_append_sep, split_append_sep, split_of_not_mem (brace_not_mem_hexNumber _),
    split_of_not_mem (brace_not_mem_hexNumber _)] at hsplit
  exact Char.toNat_inj.1 (hexNumber_injective (List.cons.inj hsplit).1)

/-- The marks that stand for a character behind a backslash. -/
def escapeMarks : List (Char × Char) :=
  [('\x00', '0'), ('\t', 't'), ('\r', 'r'), ('\n', 'n'), ('"', '"'), ('\\', '\\')]

inductive Escaped (c : Char) : List Char → Prop
  | marked {mark : Char} (hmark : (c, mark) ∈ escapeMarks) : Escaped c ['\\', mark]
  | plain (hc : c ≠ '\\') : Escaped c [c]
  | numbered : Escaped c ('\\' :: 'u' :: '\x7b' :: hexNumber c.toNat ++ ['\x7d'])

theorem escaped_escape (c : Char) : Escaped c (escape c) := by
  unfold escape
  split
  next h => exact h ▸ .marked (by decide)
  split
  next h => exact h ▸ .marked (by decide)
  split
  next h => exact h ▸ .marked (by decide)
  split
  next h => exact h ▸ .marked (by decide)
  split
  next h => rcases h with rfl | rfl <;> exact .marked (by decide)
  next h =>
    split
    next => exact .plain fun hc => h (.inr hc)
    next => exact .numbered

theorem mark_inj {mark : Char} (hc : (c, mark) ∈ escapeMarks) (hd : (d, mark) ∈ escapeMarks) :
    c = d := by
  have hall : ∀ x ∈ escapeMarks, ∀ y ∈ escapeMarks, x.2 = y.2 → x.1 = y.1 := by decide
  exact hall _ hc _ hd rfl

theorem mark_ne {mark : Char} (hc : (c, mark) ∈ escapeMarks) : mark ≠ 'u' := by
  have hall : ∀ x ∈ escapeMarks, x.2 ≠ 'u' := by decide
  exact hall _ hc

theorem escape_append_inj (h : escape c ++ rest = escape d ++ rest') : c = d := by
  have hc := escaped_escape c
  have hd := escaped_escape d
  generalize escape c = cs at h hc
  generalize escape d = ds at h hd
  cases hc with
  | marked hmark =>
    cases hd with
    | marked hmark' =>
      obtain rfl := (List.cons.inj (List.cons.inj h).2).1
      exact mark_inj hmark hmark'
    | plain hplain => exact absurd (List.cons.inj h).1.symm hplain
    | numbered => exact absurd (List.cons.inj (List.cons.inj h).2).1 (mark_ne hmark)
  | plain hplain =>
    cases hd with
    | plain => exact (List.cons.inj h).1
    | marked | numbered => exact absurd (List.cons.inj h).1 hplain
  | numbered =>
    cases hd with
    | marked hmark => exact absurd (List.cons.inj (List.cons.inj h).2).1.symm (mark_ne hmark)
    | plain hplain => exact absurd (List.cons.inj h).1.symm hplain
    | numbered =>
      simp only [List.cons_append, List.append_assoc, List.nil_append, List.cons.injEq,
        true_and] at h
      exact numbered_inj h

theorem escapes_inj (h : cs.flatMap escape = ds.flatMap escape) : cs = ds := by
  have hne (c : Char) : escape c ≠ [] := by
    have hc := escaped_escape c
    intro hnil
    rw [hnil] at hc
    cases hc
  induction cs generalizing ds with
  | nil =>
    cases ds with
    | nil => rfl
    | cons d ds => simp [hne] at h
  | cons c cs ih =>
    cases ds with
    | nil => simp [hne] at h
    | cons d ds =>
      rw [List.flatMap_cons, List.flatMap_cons] at h
      obtain rfl := escape_append_inj h
      rw [ih (List.append_cancel_left h)]

theorem quoted_injective : Function.Injective quoted := by
  intro s t h
  have hquoted : quotedChars s.toList = quotedChars t.toList := String.ofList_injective h
  have hescapes := List.append_cancel_right (List.cons.inj hquoted).2
  exact String.toList_inj.1 (escapes_inj hescapes)

end FtpServer.Text
