import FtpServer.Account
import FtpServer.Failure
import FtpServer.Session.Outcome

/-!
# Answers, beginnings and ends

The code of a reply tells what comes of a command: 150 that a transfer begins, 226 that one was
aborted, 221 or 421 that the session ends, and every other one that none of these happens.
-/

namespace FtpServer

def IsAnswerCode (code : Nat) : Prop := code ≠ 150 ∧ code ≠ 221 ∧ code ≠ 421 ∧ code ≠ 226

instance (code : Nat) : Decidable (IsAnswerCode code) := inferInstanceAs (Decidable (_ ∧ _))

theorem LoginError.isAnswerCode (e : LoginError) : IsAnswerCode e.code := by
  cases e <;> simp [IsAnswerCode, code]

theorem StorageError.isAnswerCode (e : StorageError) : IsAnswerCode e.code := by
  simp [IsAnswerCode, code]

theorem StorageError.isAnswerCode_creation (e : StorageError) : IsAnswerCode e.creationCode := by
  cases e <;> simp [IsAnswerCode, creationCode]

theorem NavigationError.isAnswerCode (e : NavigationError) : IsAnswerCode e.code := by
  simp [IsAnswerCode, code]

namespace Outcome

variable {o : Outcome}

structure IsAnswer (o : Outcome) : Prop where
  transfer : o.transfer = none
  status : o.status ≠ .close
  code : ∀ reply, o.reply = some reply → IsAnswerCode reply.code

def IsUntaken (o : Outcome) : Prop := ∀ t, o.transfer = some t → t.stream.isSome

/-- The code of the reply tells whether a transfer begins and whether the session ends. -/
structure IsConsistent (o : Outcome) : Prop where
  begins : o.reply.map Reply.code = some 150 ↔ o.transfer.isSome = true
  ends : o.status = .close ↔ o.reply.map Reply.code = some 221 ∨ o.reply.map Reply.code = some 421

/-- In addition nothing was aborted. -/
structure IsUnaborted (o : Outcome) : Prop extends o.IsConsistent where
  tame : ∀ reply, o.reply = some reply → reply.code ≠ 226

theorem isAnswer_success {code : Nat} (h : IsAnswerCode code) (text : String) :
    (success code text).IsAnswer :=
  ⟨rfl, by simp [success], fun _ hreply => Option.some.inj hreply ▸ h⟩

theorem isAnswer_failure {code : Nat} (h : IsAnswerCode code) (text : String) :
    (failure code text).IsAnswer :=
  ⟨rfl, by simp [failure], fun _ hreply => Option.some.inj hreply ▸ h⟩

theorem isAnswer_ignored : ignored.IsAnswer :=
  ⟨rfl, by simp [ignored], fun _ hreply => by cases hreply⟩

theorem IsAnswer.code_eq (h : o.IsAnswer) {code : Nat} (hcode : o.reply.map Reply.code = some code) :
    IsAnswerCode code := by
  obtain ⟨reply, hreply, rfl⟩ := Option.map_eq_some_iff.1 hcode
  exact h.code reply hreply

theorem IsAnswer.isUntaken (h : o.IsAnswer) : o.IsUntaken := fun t ht => by
  rw [h.transfer] at ht
  cases ht

theorem IsAnswer.isConsistent (h : o.IsAnswer) : o.IsConsistent where
  begins := by
    rw [h.transfer]
    exact ⟨fun hcode => absurd rfl (h.code_eq hcode).1, fun hnone => by cases hnone⟩
  ends := by
    refine ⟨fun hclose => absurd hclose h.status, ?_⟩
    rintro (hcode | hcode)
    · exact absurd rfl (h.code_eq hcode).2.1
    · exact absurd rfl (h.code_eq hcode).2.2.1

theorem IsAnswer.isUnaborted (h : o.IsAnswer) : o.IsUnaborted :=
  ⟨h.isConsistent, fun reply hreply => (h.code reply hreply).2.2.2⟩

theorem isConsistent_success {code : Nat} (h : code ≠ 150 ∧ code ≠ 221 ∧ code ≠ 421) (text : String) :
    (success code text).IsConsistent where
  begins := by simp [success, h.1]
  ends := by simp [success, h.2.1, h.2.2]

theorem isUnaborted_close {code : Nat} (h : code = 221 ∨ code = 421) (text : String) :
    (close code text).IsUnaborted where
  begins := by rcases h with rfl | rfl <;> simp [close]
  ends := by rcases h with rfl | rfl <;> simp [close]
  tame := by rcases h with rfl | rfl <;> simp [close]

/-- A command that opens a transfer comes to an answer, or to a transfer that has not been taken. -/
inductive Opens (o : Outcome) : Prop
  | answers (h : o.IsAnswer)
  | begins (text : String) (direction : Direction) (stream : Stream Source Sink)
      (h : o = .begin text ⟨direction, some stream⟩)

theorem Opens.isUntaken (h : o.Opens) : o.IsUntaken := by
  cases h with
  | answers h => exact h.isUntaken
  | begins text direction stream h =>
    subst h
    intro t ht
    obtain rfl := Option.some.inj ht
    rfl

theorem Opens.isUnaborted (h : o.Opens) : o.IsUnaborted := by
  cases h with
  | answers h => exact h.isUnaborted
  | begins text direction stream h =>
    subst h
    refine ⟨⟨?_, ?_⟩, ?_⟩ <;> simp [begin]

end Outcome

end FtpServer
