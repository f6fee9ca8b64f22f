import Mathlib.Data.List.Induction

/-!
# What a history says about the present

Much of what a state remembers is one event of the past that no later event undid.
-/

namespace FtpServer

variable {ε : Type}

/-- A `p` happened, and no `q` after it. -/
def Since (p q : ε → Prop) (τ : List ε) : Prop :=
  ∃ before e after, τ = before ++ e :: after ∧ p e ∧ ∀ e' ∈ after, ¬ q e'

variable {p q : ε → Prop} {τ : List ε} {e : ε}

@[simp] theorem not_since_nil : ¬ Since p q ([] : List ε) := by
  rintro ⟨before, e, after, hnil, -⟩
  simp at hnil

/-- The last event is the one, or it leaves the one before it standing. -/
@[simp] theorem since_snoc : Since p q (τ ++ [e]) ↔ p e ∨ Since p q τ ∧ ¬ q e := by
  constructor
  · rintro ⟨before, first, after, hτ, hp, hq⟩
    rcases after.eq_nil_or_concat with rfl | ⟨after, last, rfl⟩
    · obtain ⟨-, hlast⟩ := List.append_inj' hτ rfl
      exact .inl (List.singleton_inj.1 hlast ▸ hp)
    · have hsplit : τ ++ [e] = (before ++ first :: after) ++ [last] := by simpa using hτ
      obtain ⟨rfl, hlast⟩ := List.append_inj' hsplit rfl
      obtain rfl := List.singleton_inj.1 hlast
      exact .inr ⟨⟨before, first, after, rfl, hp, fun e' he' => hq e' (by simp [he'])⟩,
        hq e (by simp)⟩
  · rintro (hp | ⟨⟨before, first, after, rfl, hp, hafter⟩, hq⟩)
    · exact ⟨τ, e, [], rfl, hp, by simp⟩
    · refine ⟨before, first, after ++ [e], by simp, hp, fun e' he' => ?_⟩
      rcases List.mem_append.1 he' with he' | he'
      · exact hafter e' he'
      · exact List.mem_singleton.1 he' ▸ hq

theorem Since.after {past : List ε} (h : Since p q (past ++ e :: τ)) (hp : ¬ p e) (hq : q e) :
    Since p q τ := by
  induction τ using List.reverseRecOn with
  | nil => exact ((since_snoc.1 h).resolve_left hp).2.elim hq
  | append_singleton τ last ih =>
    rw [← List.cons_append, ← List.append_assoc, since_snoc] at h
    exact since_snoc.2 (h.imp_right fun ⟨h, hlast⟩ => ⟨ih h, hlast⟩)

end FtpServer
