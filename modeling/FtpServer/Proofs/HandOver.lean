import FtpServer.Proofs.WakeUps

/-!
# A transfer is handed over once

Of all who wait at a slot one at most gets the stream of a transfer, and only of the latest one,
while it is not cancelled.  That the transfer is in progress outlasts the handing over.
-/

namespace FtpServer

namespace Slot

variable {S K : Type} {s s' : Slot S K} {τ : List (Event S K)} {e : Event S K} {p : Place} {i : Nat}

def Event.answer? (i : Nat) : Event S K → Option (Look S K)
  | polled _ _ .pending => none
  | polled j _ look => if j = i then some look else none
  | _ => none

/-- All transfers there have been, the earliest first. -/
def installed (τ : List (Event S K)) : List (Direction × Stream S K) :=
  τ.filterMap Event.installed?

def given (τ : List (Event S K)) : List (Direction × Stream S K) := τ.filterMap Event.given?

def answers (i : Nat) (τ : List (Event S K)) : List (Look S K) := τ.filterMap (Event.answer? i)

theorem installed_snoc : installed (τ ++ [e]) = installed τ ++ e.installed?.toList := by
  cases h : e.installed? <;> simp [installed, h]

theorem given_snoc : given (τ ++ [e]) = given τ ++ e.given?.toList := by
  cases h : e.given? <;> simp [given, h]

theorem answers_snoc : answers i (τ ++ [e]) = answers i τ ++ (e.answer? i).toList := by
  cases h : e.answer? i <;> simp [answers, h]

/-- Nothing was given twice, and what the slot holds was not given yet. -/
@[mk_iff dispenses_iff]
structure Dispenses (s : Slot S K) (τ : List (Event S K)) : Prop where
  once : (given τ).Sublist (installed τ)
  held : ∀ direction stream, s.handle = some ⟨direction, some stream⟩ →
    ∃ earlier, installed τ = earlier ++ [(direction, stream)] ∧ (given τ).Sublist earlier

theorem Dispenses.shift (h : Dispenses s τ) (hshift : Shift s e s') : Dispenses s' (τ ++ [e]) := by
  cases hshift with
  | installed direction stream =>
    constructor
    · simpa [given_snoc, installed_snoc, Event.given?] using
        h.once.trans (List.sublist_append_left _ _)
    · rintro _ _ ⟨⟩
      refine ⟨installed τ, by simp [installed_snoc, Event.installed?], ?_⟩
      simpa [given_snoc, Event.given?] using h.once
  | @given direction stream i resumed huncancelled hhandle =>
    obtain ⟨earlier, hlast, hbefore⟩ := h.held _ _ hhandle
    refine ⟨?_, by simp⟩
    simpa [given_snoc, installed_snoc, Event.given?, Event.installed?, hlast] using hbefore
  | rearmed | finished =>
    refine ⟨?_, by simp⟩
    simpa [given_snoc, installed_snoc, Event.given?, Event.installed?] using h.once
  | _ => simpa [dispenses_iff, given_snoc, installed_snoc, Event.given?, Event.installed?] using h

namespace Lobby

variable {l : Lobby S K} {act : Act S K} {look : Look S K}

theorem dispenses (acts : List (Act S K)) : Dispenses (after acts).slot (history acts) := by
  induction acts using List.reverseRecOn with
  | nil => exact ⟨.refl _, by simp [new, fresh]⟩
  | append_singleton acts act ih => simpa using ih.shift ((after acts).shift act)

theorem leaves_of_answer? (h : (l.step act).1.answer? i = some look) :
    (∃ p, l.place? i = some p) ∧ (l.step act).2.place? i = none := by
  cases act with
  | poll j =>
    cases hp : l.place? j with
    | none => simp [step, hp, Event.answer?] at h
    | some p =>
      rw [step_poll hp] at h ⊢
      cases hlook : (p.poll l.slot).1 with
      | pending => simp [hlook, Event.answer?] at h
      | cancelled | ready =>
        obtain ⟨rfl, -⟩ : j = i ∧ _ := by simpa [hlook, Event.answer?] using h
        refine ⟨⟨p, hp⟩, ?_⟩
        simp [place?_set _ _ (lt_of_place? hp), Look.keep]
  | stall j =>
    cases hp : (l.place? j).bind (·.stall? l.slot) <;> simp [step, hp, Event.answer?] at h
  | _ => simp [step, Event.answer?] at h

theorem place?_step_eq_none (hi : i < l.places.length) (hp : l.place? i = none) :
    (l.step act).2.place? i = none := by
  cases hafter : (l.step act).2.place? i with
  | none => rfl
  | some p =>
    cases remains_of_step hafter with
    | came wait hlength => omega
    | polled hbefore | stalled hbefore | stayed hbefore => simp [hp] at hbefore

theorem answers_once (acts : List (Act S K)) (i : Nat) :
    answers i (history acts) = [] ∨ (answers i (history acts)).length = 1 ∧
      i < (after acts).places.length ∧ (after acts).place? i = none := by
  induction acts using List.reverseRecOn with
  | nil => exact .inl rfl
  | append_singleton acts act ih =>
    rw [history_snoc, after_snoc]
    have hlength := (after acts).length_step act
    cases hanswer : ((after acts).step act).1.answer? i with
    | none =>
      simp only [answers_snoc, hanswer, Option.toList_none, List.append_nil]
      refine ih.imp_right fun ⟨hone, hi, hp⟩ => ?_
      exact ⟨hone, Nat.lt_of_lt_of_le hi hlength, place?_step_eq_none hi hp⟩
    | some look =>
      obtain ⟨⟨p, hp⟩, hleft⟩ := leaves_of_answer? hanswer
      have hnone : answers i (history acts) = [] := by
        rcases ih with hnone | ⟨-, -, hgone⟩
        · exact hnone
        · simp [hp] at hgone
      refine .inr ⟨?_, Nat.lt_of_lt_of_le (lt_of_place? hp) hlength, hleft⟩
      simp [answers_snoc, hanswer, hnone]

theorem glance_of_due {acts : List (Act S K)} (hp : (after acts).place? i = some p)
    (hdue : p.waiter.waitsFor.Due (after acts).slot) :
    Glance p.waiter.waitsFor (after acts).slot (p.poll (after acts).slot).1
      (p.poll (after acts).slot).2.2 := by
  have halert := (attends acts hp).alert hdue
  have hpolled := p.polled (after acts).slot
  generalize p.poll (after acts).slot = outcome at hpolled
  cases hpolled with
  | sleeps hstalled hasleep => simp [hstalled, hasleep] at halert
  | looks _ _ hglance | resumes _ hglance => exact hglance

theorem ready_iff {acts : List (Act S K)} (hp : (after acts).place? i = some p)
    (direction : Direction) (stream : Stream S K) :
    (p.poll (after acts).slot).1 = .ready direction stream ↔
      p.waiter.waitsFor = .transfer ∧ (after acts).slot.cancelled = false ∧
      (after acts).slot.handle = some ⟨direction, some stream⟩ := by
  constructor
  · intro hready
    have hpolled := p.polled (after acts).slot
    generalize p.poll (after acts).slot = outcome at hpolled hready
    cases hpolled with
    | sleeps => cases hready
    | looks _ _ hglance | resumes _ hglance =>
      obtain rfl : _ = Look.ready direction stream := hready
      cases hglance with
      | takes huncancelled htransfer hhandle => exact ⟨htransfer, huncancelled, hhandle⟩
  · rintro ⟨htransfer, huncancelled, hhandle⟩
    have hdue : p.waiter.waitsFor.Due (after acts).slot :=
      .inr ⟨htransfer, direction, stream, hhandle⟩
    have hglance := glance_of_due hp hdue
    generalize p.poll (after acts).slot = outcome at hglance
    generalize outcome.1 = look at hglance ⊢
    generalize outcome.2.2 = slot at hglance
    cases hglance with
    | inVain hvain => exact absurd hdue hvain
    | gone hcancelled => simp [huncancelled] at hcancelled
    | takes _ _ hhandle' =>
      rw [hhandle] at hhandle'
      cases hhandle'
      rfl

/-- At a slot that is cancelled every poll says so and takes nothing. -/
theorem poll_of_cancelled {acts : List (Act S K)} (hp : (after acts).place? i = some p)
    (hcancelled : (after acts).slot.cancelled = true) :
    (p.poll (after acts).slot).1 = .cancelled ∧
      (p.poll (after acts).slot).2.2 = (after acts).slot := by
  have hglance := glance_of_due hp (.inl hcancelled)
  generalize p.poll (after acts).slot = outcome at hglance
  generalize outcome.1 = look at hglance ⊢
  generalize outcome.2.2 = slot at hglance ⊢
  cases hglance with
  | inVain hvain => exact absurd (.inl hcancelled) hvain
  | gone => exact ⟨rfl, rfl⟩
  | takes huncancelled => simp [hcancelled] at huncancelled

end Lobby

open Lobby

/-- The history of a slot decides what it hands over. -/
structure HandsOverOnce (acts : List (Act S K)) : Prop where
  /-- What the waiters got are some of the transfers there were, each of them once. -/
  once : (given (history acts)).Sublist (installed (history acts))
  /-- A waiter gets one answer. -/
  answered : ∀ i, (answers i (history acts)).length ≤ 1
  /-- The next waiter for a transfer gets the latest one, if it is there still and not
  cancelled. -/
  latest : ∀ i p, (after acts).place? i = some p → ∀ direction stream,
    ((after acts).step (.poll i)).1 = .polled i p.stalled (.ready direction stream) ↔
      p.waiter.waitsFor = .transfer ∧
      ¬ Since (· = .cancelled) (· = .rearmed) (history acts) ∧
      Since (· = .installed direction stream) Event.Spends (history acts)
  /-- While it is cancelled, waiters are told so and the slot stays as it is. -/
  cancelled : ∀ i p, (after acts).place? i = some p →
    Since (· = .cancelled) (· = .rearmed) (history acts) →
    (after acts).step (.poll i) = (.polled i p.stalled .cancelled,
      { after acts with places := (after acts).places.set i none })
  /-- The transfer is in progress until it is finished, whoever took its stream. -/
  inProgress : (after acts).slot.inProgress = true ↔
    Since (·.installed?.isSome) Event.Empties (history acts)
  /-- Whoever finishes is told whether it was cancelled. -/
  finished : ∃ told, ((after acts).step .finish).1 = .finished told ∧
    (told = true ↔ Since (· = .cancelled) (· = .rearmed) (history acts))

/-- Whatever is done at a slot, in whatever order, a transfer is handed over once at most. -/
theorem handed_over_once (acts : List (Act S K)) : HandsOverOnce acts where
  once := (dispenses acts).once
  answered i := by
    rcases answers_once acts i with hnone | ⟨hone, -⟩
    · simp [hnone]
    · exact Nat.le_of_eq hone
  latest i p hp direction stream := by
    have hreflects := reflects acts
    rw [step_poll hp, ← hreflects.cancelled, ← hreflects.handle]
    simpa using ready_iff hp direction stream
  cancelled i p hp hcancelled := by
    obtain ⟨hlook, hslot⟩ := poll_of_cancelled hp ((reflects acts).cancelled.2 hcancelled)
    rw [step_poll hp, hlook, hslot]
    rfl
  inProgress := (reflects acts).inProgress
  finished := ⟨_, rfl, (reflects acts).cancelled⟩

/-- A transfer that nobody took is replaced, and one of two waiters gets the other. -/
example : given (history ([.await .transfer, .await .transfer, .install .sendFile (.source 1),
    .install .receiveFile (.sink 2), .poll 1, .poll 0] : List (Act Nat Nat))) =
      [(.receiveFile, .sink 2)] := rfl

end Slot

end FtpServer
