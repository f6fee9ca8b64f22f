import FtpServer.Account

/-!
# What the settings admit

A name is asked for its password, and a password earns a guest its identity, exactly if they are
within the limits of the settings.
-/

namespace FtpServer

open Text

def IsClean (text : String) : Prop := ∀ c ∈ text.toList, c ≠ '\r' ∧ c ≠ '\n' ∧ c ≠ '\x00'

structure Settings.AdmitsName (settings : Settings) (name : String) : Prop where
  notBlank : ∃ c ∈ name.toList, isBlank c = false
  short : name.utf8ByteSize ≤ settings.maxUsernameLength.toNat
  clean : IsClean name

structure Settings.AdmitsPassword (settings : Settings) (password : String) : Prop where
  short : password.utf8ByteSize ≤ settings.maxPasswordLength.toNat
  clean : IsClean password

namespace Account

variable {settings : Settings} {text name password identity : String} {most : UInt64}

theorem isAcceptable_iff :
    isAcceptable text most = true ↔ text.utf8ByteSize ≤ most.toNat ∧ IsClean text := by
  simp [isAcceptable, isClean, IsClean, and_assoc]

theorem isBlankName_eq_false_iff :
    isBlankName name = false ↔ ∃ c ∈ name.toList, isBlank c = false := by
  simp [isBlankName]

theorem admitsName_iff : settings.AdmitsName name ↔
    (isBlankName name || !isAcceptable name settings.maxUsernameLength) = false := by
  rw [Bool.or_eq_false_iff, isBlankName_eq_false_iff, Bool.not_eq_false', isAcceptable_iff]
  exact ⟨fun h => ⟨h.notBlank, h.short, h.clean⟩, fun h => ⟨h.1, h.2.1, h.2.2⟩⟩

theorem admitsPassword_iff : settings.AdmitsPassword password ↔
    isAcceptable password settings.maxPasswordLength = true := by
  rw [isAcceptable_iff]
  exact ⟨fun h => ⟨h.short, h.clean⟩, fun h => ⟨h.1, h.2⟩⟩

theorem checkUser_eq_ok_iff : checkUser settings name = .ok () ↔
    settings.AdmitsName name ∧ (name = anonymous → settings.allowAnonymous = true) := by
  rw [admitsName_iff, checkUser]
  split
  next hform => simp [hform]
  next hform =>
    rw [Bool.not_eq_true] at hform
    split
    next hanonymous => simp [hanonymous]
    next hallowed => simpa [hform] using hallowed

theorem anonymousIdentity_eq_ok_iff : anonymousIdentity settings password = .ok identity ↔
    settings.AdmitsPassword password ∧ identity = anonymous ++ "/" ++ password := by
  rw [admitsPassword_iff, anonymousIdentity]
  split
  next hlong =>
    have hnot : ¬ isAcceptable password settings.maxPasswordLength = true := fun h =>
      Nat.not_le.2 hlong (isAcceptable_iff.1 h).1
    simp [hnot]
  next =>
    split
    next hnot =>
      rw [Bool.not_eq_true'] at hnot
      simp [hnot]
    next hok =>
      rw [Bool.not_eq_true', Bool.not_eq_false] at hok
      simp [hok, eq_comm]

theorem anonymousIdentity_error {e : LoginError}
    (h : anonymousIdentity settings password = .error e) :
    e = .passwordTooLong ∨ e = .malformedInput "Invalid password format" := by
  rw [anonymousIdentity] at h
  split at h
  next => exact .inl (Except.error.inj h).symm
  next =>
    split at h
    next => exact .inr (Except.error.inj h).symm
    next => cases h

end Account

end FtpServer
