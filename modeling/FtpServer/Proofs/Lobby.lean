import Mathlib.Data.List.Induction
import FtpServer.Proofs.Attendance
import FtpServer.Proofs.Since

/-!
# A slot and all who wait at it

Waiters come to a slot, are polled and leave it, in any order with what else is done at the slot.
A poll may stall: the waiter listens for wake-ups already, but has to wait with its look until the
slot is free.

The slot reflects its history: that it is cancelled, in progress, or has a stream to hand out, is
each time one event of the past that nothing undid.
-/

namespace FtpServer

namespace Slot

variable {S K : Type}

/-- What can be done at a slot.  Waiters are numbered in the order in which they come. -/
inductive Act (S K : Type)
  | install (direction : Direction) (stream : Stream S K)
  | cancel
  | rearm
  | finish
  | record (bytes : UInt64)
  | await (wait : Wait)
  | poll (i : Nat)
  /-- Begins a poll that does not get at the slot. -/
  | stall (i : Nat)
  /-- Gives a waiter up. -/
  | drop (i : Nat)
  deriving DecidableEq, Repr

/-- What was done at a slot, and what it showed. -/
inductive Event (S K : Type)
  | installed (direction : Direction) (stream : Stream S K)
  | cancelled
  | rearmed
  /-- Whoever finishes is told whether the transfer was cancelled. -/
  | finished (told : Bool)
  | recorded (bytes : UInt64)
  | came (wait : Wait)
  /-- A poll that was `resumed` had stalled. -/
  | polled (i : Nat) (resumed : Bool) (look : Look S K)
  | stalled (i : Nat)
  | dropped (i : Nat)
  | idle
  deriving DecidableEq, Repr

/-- A waiter, and whether its poll has stalled. -/
structure Place where
  waiter : Waiter
  stalled : Bool
  deriving DecidableEq, Repr

namespace Place

/-- A poll that was stalled looks at last, and the waiter goes on listening from where it began. -/
def poll (p : Place) (s : Slot S K) : Look S K × Place × Slot S K :=
  if p.stalled then
    let (look, _, s) := (Waiter.start p.waiter.waitsFor).poll s
    (look, ⟨p.waiter, false⟩, s)
  else
    let (look, w, s) := p.waiter.poll s
    (look, ⟨w, false⟩, s)

/-- A waiter that was about to look may stall. -/
def stall? (p : Place) (s : Slot S K) : Option Place :=
  if p.stalled = false ∧ p.waiter.awake s = true then
    some ⟨{ p.waiter with seen := some s.wakes }, true⟩
  else none

end Place

/-- A waiter stays until it is answered. -/
def Look.keep : Look S K → Place → Option Place
  | .pending, p => some p
  | .cancelled, _ => none
  | .ready _ _, _ => none

/-- A waiter that was answered or given up has left its place. -/
structure Lobby (S K : Type) where
  slot : Slot S K
  places : List (Option Place)
  deriving DecidableEq, Repr

namespace Lobby

def new : Lobby S K := ⟨.fresh, []⟩

def place? (l : Lobby S K) (i : Nat) : Option Place := l.places[i]?.join

def step (l : Lobby S K) : Act S K → Event S K × Lobby S K
  | .install direction stream =>
    (.installed direction stream, { l with slot := l.slot.install ⟨direction, some stream⟩ })
  | .cancel => (.cancelled, { l with slot := l.slot.cancel })
  | .rearm => (.rearmed, { l with slot := l.slot.rearm })
  | .finish => (.finished l.slot.cancelled, { l with slot := l.slot.finish })
  | .record bytes => (.recorded bytes, { l with slot := l.slot.record bytes })
  | .await wait => (.came wait, { l with places := l.places ++ [some ⟨.start wait, false⟩] })
  | .poll i =>
    match l.place? i with
    | some p =>
      let (look, p', slot) := p.poll l.slot
      (.polled i p.stalled look, ⟨slot, l.places.set i (look.keep p')⟩)
    | none => (.idle, l)
  | .stall i =>
    match (l.place? i).bind (·.stall? l.slot) with
    | some p => (.stalled i, { l with places := l.places.set i (some p) })
    | none => (.idle, l)
  | .drop i => (.dropped i, { l with places := l.places.set i none })

def run (l : Lobby S K) : List (Act S K) → List (Event S K) × Lobby S K
  | [] => ([], l)
  | act :: acts =>
    let (e, l) := l.step act
    let (τ, l) := l.run acts
    (e :: τ, l)

def history (acts : List (Act S K)) : List (Event S K) := (new.run acts).1

def after (acts : List (Act S K)) : Lobby S K := (new.run acts).2

variable {l : Lobby S K} {acts acts' : List (Act S K)} {act : Act S K} {i j : Nat} {p : Place}

theorem run_append (l : Lobby S K) (acts acts' : List (Act S K)) :
    l.run (acts ++ acts') =
      ((l.run acts).1 ++ ((l.run acts).2.run acts').1, ((l.run acts).2.run acts').2) := by
  induction acts generalizing l with
  | nil => rfl
  | cons act acts ih => simp [run, ih]

@[simp] theorem history_nil : history ([] : List (Act S K)) = [] := rfl

@[simp] theorem after_nil : after ([] : List (Act S K)) = new := rfl

theorem history_append : history (acts ++ acts') = history acts ++ ((after acts).run acts').1 := by
  simp [history, after, run_append]

theorem after_append : after (acts ++ acts') = ((after acts).run acts').2 := by
  simp [after, run_append]

@[simp] theorem history_snoc :
    history (acts ++ [act]) = history acts ++ [((after acts).step act).1] := history_append

@[simp] theorem after_snoc : after (acts ++ [act]) = ((after acts).step act).2 := after_append

@[simp] theorem place?_new : (new : Lobby S K).place? i = none := rfl

theorem place?_of_le (h : l.places.length ≤ i) : l.place? i = none := by
  simp [place?, List.getElem?_eq_none h]

theorem lt_of_place? (h : l.place? i = some p) : i < l.places.length := by
  by_contra hle
  rw [place?_of_le (Nat.le_of_not_lt hle)] at h
  cases h

theorem place?_set (slot : Slot S K) (place : Option Place) (hi : i < l.places.length) :
    (⟨slot, l.places.set i place⟩ : Lobby S K).place? j = if i = j then place else l.place? j := by
  by_cases hij : i = j
  · subst hij
    simp [place?, hi]
  · simp [place?, hij]

theorem place?_set_of_ne (slot : Slot S K) (place : Option Place) (hij : i ≠ j) :
    (⟨slot, l.places.set i place⟩ : Lobby S K).place? j = l.place? j := by
  simp [place?, hij]

theorem step_poll (hp : l.place? i = some p) :
    l.step (.poll i) = (.polled i p.stalled (p.poll l.slot).1,
      ⟨(p.poll l.slot).2.2, l.places.set i ((p.poll l.slot).1.keep (p.poll l.slot).2.1)⟩) := by
  simp [step, hp]

end Lobby

def Wait.Due (wait : Wait) (s : Slot S K) : Prop :=
  s.cancelled = true ∨
    wait = .transfer ∧ ∃ direction stream, s.handle = some ⟨direction, some stream⟩

/-- What a look at the slot gives, and what it does to it. -/
inductive Glance (wait : Wait) (s : Slot S K) : Look S K → Slot S K → Prop
  | inVain (hdue : ¬ wait.Due s) : Glance wait s .pending s
  | gone (hcancelled : s.cancelled = true) : Glance wait s .cancelled s
  | takes {direction : Direction} {stream : Stream S K} (huncancelled : s.cancelled = false)
      (htransfer : wait = .transfer) (hhandle : s.handle = some ⟨direction, some stream⟩) :
      Glance wait s (.ready direction stream) { s with handle := some ⟨direction, none⟩ }

theorem Waiter.glance_of_awake {w : Waiter} {s : Slot S K} (hawake : w.awake s = true) :
    (w.poll s).2.1 = { w with seen := some s.wakes } ∧
      Glance w.waitsFor s (w.poll s).1 (w.poll s).2.2 := by
  cases hwait : w.waitsFor with
  | transfer =>
    rw [poll_of_awake hawake hwait]
    refine ⟨by rw [hwait], ?_⟩
    obtain ⟨hcancelled, htake⟩ | ⟨huncancelled, direction, stream, hhandle, htake⟩ |
      ⟨huncancelled, htaken, htake⟩ := s.take_cases
    · rw [htake]
      exact .gone hcancelled
    · rw [htake]
      exact .takes huncancelled rfl hhandle
    · rw [htake]
      refine .inVain fun hdue => ?_
      rcases hdue with hcancelled | ⟨-, direction, stream, hhandle⟩
      · simp [huncancelled] at hcancelled
      · simpa using htaken _ hhandle
  | cancellation =>
    cases hcancelled : s.cancelled with
    | true => simpa [poll, hawake, hwait, hcancelled] using Glance.gone hcancelled
    | false =>
      have hdue : ¬ Wait.cancellation.Due s := by simp [Wait.Due, hcancelled]
      simpa [poll, hawake, hwait, hcancelled] using Glance.inVain hdue

/-- What a poll makes of a place and of the slot. -/
inductive Place.Polled (p : Place) (s : Slot S K) : Look S K × Place × Slot S K → Prop
  | sleeps (hstalled : p.stalled = false) (hasleep : p.waiter.awake s = false) :
      Polled p s (.pending, p, s)
  | looks {look : Look S K} {s' : Slot S K} (hstalled : p.stalled = false)
      (hawake : p.waiter.awake s = true) (hglance : Glance p.waiter.waitsFor s look s') :
      Polled p s (look, ⟨{ p.waiter with seen := some s.wakes }, false⟩, s')
  | resumes {look : Look S K} {s' : Slot S K} (hstalled : p.stalled = true)
      (hglance : Glance p.waiter.waitsFor s look s') : Polled p s (look, ⟨p.waiter, false⟩, s')

theorem Place.polled (p : Place) (s : Slot S K) : p.Polled s (p.poll s) := by
  cases hstalled : p.stalled with
  | true =>
    have hglance := Waiter.glance_of_awake (w := .start p.waiter.waitsFor) (s := s) rfl
    simpa [poll, hstalled] using Polled.resumes hstalled hglance.2
  | false =>
    cases hawake : p.waiter.awake s with
    | false =>
      obtain ⟨w, stalled⟩ := p
      obtain rfl : stalled = false := hstalled
      simpa [poll, Waiter.poll, hawake] using Polled.sleeps rfl hawake
    | true =>
      obtain ⟨hseen, hglance⟩ := Waiter.glance_of_awake hawake
      simpa [poll, hstalled, hseen] using Polled.looks hstalled hawake hglance

/-- What an event does to the slot itself. -/
inductive Shift (s : Slot S K) : Event S K → Slot S K → Prop
  | installed (direction : Direction) (stream : Stream S K) :
      Shift s (.installed direction stream) (s.install ⟨direction, some stream⟩)
  | cancelled : Shift s .cancelled s.cancel
  | rearmed : Shift s .rearmed s.rearm
  | finished : Shift s (.finished s.cancelled) s.finish
  | recorded (bytes : UInt64) : Shift s (.recorded bytes) (s.record bytes)
  | came (wait : Wait) : Shift s (.came wait) s
  | refused (i : Nat) (resumed : Bool) : Shift s (.polled i resumed .pending) s
  | turnedAway (i : Nat) (resumed : Bool) (hcancelled : s.cancelled = true) :
      Shift s (.polled i resumed .cancelled) s
  | given {direction : Direction} {stream : Stream S K} (i : Nat) (resumed : Bool)
      (huncancelled : s.cancelled = false) (hhandle : s.handle = some ⟨direction, some stream⟩) :
      Shift s (.polled i resumed (.ready direction stream))
        { s with handle := some ⟨direction, none⟩ }
  | stalled (i : Nat) : Shift s (.stalled i) s
  | dropped (i : Nat) : Shift s (.dropped i) s
  | idle : Shift s .idle s

theorem Glance.shift {wait : Wait} {s s' : Slot S K} {look : Look S K} (h : Glance wait s look s')
    (i : Nat) (resumed : Bool) : Shift s (.polled i resumed look) s' := by
  cases h with
  | inVain => exact .refused i resumed
  | gone hcancelled => exact .turnedAway i resumed hcancelled
  | takes huncancelled _ hhandle => exact .given i resumed huncancelled hhandle

theorem Lobby.shift (l : Lobby S K) (act : Act S K) :
    Shift l.slot (l.step act).1 (l.step act).2.slot := by
  cases act with
  | install direction stream => exact .installed direction stream
  | cancel => exact .cancelled
  | rearm => exact .rearmed
  | finish => exact .finished
  | record bytes => exact .recorded bytes
  | await wait => exact .came wait
  | drop i => exact .dropped i
  | poll i =>
    cases hp : l.place? i with
    | none => simpa [step, hp] using Shift.idle
    | some p =>
      rw [step_poll hp]
      have hpolled := p.polled l.slot
      generalize p.poll l.slot = outcome at hpolled
      cases hpolled with
      | sleeps => exact .refused i _
      | looks _ _ hglance | resumes _ hglance => exact hglance.shift i _
  | stall i =>
    cases hp : (l.place? i).bind (·.stall? l.slot) with
    | none => simpa [step, hp] using Shift.idle
    | some p => simpa [step, hp] using Shift.stalled i

namespace Event

def installed? : Event S K → Option (Direction × Stream S K)
  | installed direction stream => some (direction, stream)
  | _ => none

def given? : Event S K → Option (Direction × Stream S K)
  | polled _ _ (.ready direction stream) => some (direction, stream)
  | _ => none

def Empties : Event S K → Prop
  | rearmed => True
  | finished _ => True
  | _ => False

def Spends : Event S K → Prop
  | installed _ _ => True
  | polled _ _ (.ready _ _) => True
  | rearmed => True
  | finished _ => True
  | _ => False

end Event

structure Reflects (s : Slot S K) (τ : List (Event S K)) : Prop where
  cancelled : s.cancelled = true ↔ Since (· = .cancelled) (· = .rearmed) τ
  inProgress : s.inProgress = true ↔ Since (·.installed?.isSome) Event.Empties τ
  handle : ∀ direction stream, s.handle = some ⟨direction, some stream⟩ ↔
    Since (· = .installed direction stream) Event.Spends τ

variable {s s' : Slot S K} {τ : List (Event S K)} {e : Event S K}

theorem Reflects.fresh : Reflects (fresh : Slot S K) [] where
  cancelled := by simp [Slot.fresh]
  inProgress := by simp [Slot.fresh, Slot.inProgress]
  handle := by simp [Slot.fresh]

theorem Reflects.shift (h : Reflects s τ) (hshift : Shift s e s') : Reflects s' (τ ++ [e]) := by
  obtain ⟨hcancelled, hprogress, hhandle⟩ := h
  cases hshift with
  | given i resumed huncancelled htaken =>
    have hsome : s.inProgress = true := by simp [Slot.inProgress, htaken]
    refine ⟨by simpa using hcancelled, ?_, by simp [Event.Spends]⟩
    simpa [Slot.inProgress, Event.installed?, Event.Empties] using hprogress.1 hsome
  | _ =>
    refine ⟨?_, ?_, fun direction stream => ?_⟩
    · simp [hcancelled]
    · rw [Slot.inProgress] at hprogress
      simp [Slot.inProgress, Event.installed?, Event.Empties, hprogress]
    · simp [Event.Spends, hhandle]

theorem Lobby.reflects (acts : List (Act S K)) : Reflects (after acts).slot (history acts) := by
  induction acts using List.reverseRecOn with
  | nil => exact .fresh
  | append_singleton acts act ih => simpa using ih.shift ((after acts).shift act)

end Slot

end FtpServer
