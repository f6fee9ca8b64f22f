import FtpServer.Proofs.Lobby

/-!
# No wake-up is lost

Whoever waits at a slot and could be answered is awake or about to look.  Only two events wake, but
no other one makes an answer possible; and a waiter that falls asleep has found that there is none,
while it listened already.
-/

namespace FtpServer

namespace Slot

variable {S K : Type} {s s' : Slot S K} {τ : List (Event S K)} {e : Event S K}
variable {wait : Wait} {p : Place} {i : Nat}

namespace Event

def Rings : Event S K → Prop
  | installed _ _ => True
  | cancelled => True
  | _ => False

/-- The waiter begins to listen anew.  A poll that had stalled listens since it stalled. -/
def Listens (i : Nat) : Event S K → Prop
  | polled j resumed _ => j = i ∧ resumed = false
  | stalled j => j = i
  | _ => False

def Withdraws : Event S K → Prop
  | rearmed => True
  | finished told => told = false
  | polled _ _ (.ready _ _) => True
  | _ => False

end Event

/-- The waiter has never listened, or there was a wake-up since it began to. -/
def Unheard (i : Nat) (τ : List (Event S K)) : Prop :=
  (∀ e ∈ τ, ¬ e.Listens i) ∨ Since Event.Rings (Event.Listens i) τ

theorem unheard_snoc : Unheard i (τ ++ [e]) ↔ e.Rings ∨ Unheard i τ ∧ ¬ e.Listens i := by
  have hdeaf : e.Rings → ¬ e.Listens i := by cases e <;> simp [Event.Rings, Event.Listens]
  simp only [Unheard, since_snoc, List.mem_append, List.mem_singleton]
  constructor
  · rintro (hnever | hrings | ⟨hsince, hlistens⟩)
    · exact .inr ⟨.inl fun e' he' => hnever e' (.inl he'), hnever e (.inr rfl)⟩
    · exact .inl hrings
    · exact .inr ⟨.inr hsince, hlistens⟩
  · rintro (hrings | ⟨hnever | hsince, hlistens⟩)
    · exact .inr (.inl hrings)
    · refine .inl fun e' he' => ?_
      rcases he' with he' | rfl
      · exact hnever e' he'
      · exact hlistens
    · exact .inr (.inr ⟨hsince, hlistens⟩)

theorem Shift.wakes_of_rings (h : Shift s e s') (hrings : e.Rings) : s'.wakes = s.wakes + 1 := by
  cases h with
  | installed | cancelled => rfl
  | _ => exact hrings.elim

theorem Shift.wakes_of_not_rings (h : Shift s e s') (hrings : ¬ e.Rings) : s'.wakes = s.wakes := by
  cases h with
  | installed | cancelled => exact absurd trivial hrings
  | _ => rfl

/-- What is there now and was not there before has been rung for. -/
theorem Shift.due_of_due (h : Shift s e s') (hrings : ¬ e.Rings) (hdue : wait.Due s') :
    wait.Due s := by
  cases h with
  | installed | cancelled => exact absurd trivial hrings
  | rearmed => simp [Wait.Due] at hdue
  | finished => exact .inl (by simpa [Wait.Due] using hdue)
  | given i resumed huncancelled => simp [Wait.Due, huncancelled] at hdue
  | _ => exact hdue

theorem Shift.due (h : Shift s e s') (hkeeps : ¬ e.Withdraws) (hdue : wait.Due s) :
    wait.Due s' := by
  cases h with
  | installed direction stream =>
    exact hdue.imp id fun ⟨htransfer, _⟩ => ⟨htransfer, direction, stream, rfl⟩
  | cancelled => exact .inl rfl
  | rearmed | given => exact absurd trivial hkeeps
  | finished => exact .inl (by simpa [Event.Withdraws] using hkeeps)
  | _ => exact hdue

/-- How the waiter with number `i` stands to the slot and its history. -/
structure Attends (i : Nat) (τ : List (Event S K)) (s : Slot S K) (p : Place) : Prop where
  seen_le : ∀ n, p.waiter.seen = some n → n ≤ s.wakes
  awake_iff : p.waiter.awake s = true ↔ Unheard i τ
  alert : p.waiter.waitsFor.Due s → p.stalled = true ∨ p.waiter.awake s = true

theorem Attends.start (wait : Wait) (hunmet : ∀ e ∈ τ, ¬ e.Listens i) :
    Attends i τ s ⟨.start wait, false⟩ where
  seen_le := by simp [Waiter.start]
  awake_iff := by simpa [Waiter.start, Waiter.awake] using .inl hunmet
  alert := by simp [Waiter.start, Waiter.awake]

theorem Attends.shift (h : Attends i τ s p) (hshift : Shift s e s') (hlistens : ¬ e.Listens i) :
    Attends i (τ ++ [e]) s' p := by
  by_cases hrings : e.Rings
  · have hwakes := hshift.wakes_of_rings hrings
    have hawake : p.waiter.awake s' = true := Waiter.awake_of_lt fun n hn => by
      have := h.seen_le n hn
      omega
    refine ⟨fun n hn => ?_, ?_, fun _ => .inr hawake⟩
    · exact hwakes ▸ Nat.le_succ_of_le (h.seen_le n hn)
    · simp [hawake, unheard_snoc, hrings]
  · have hwakes := hshift.wakes_of_not_rings hrings
    have hawake : p.waiter.awake s' = p.waiter.awake s := by simp [Waiter.awake, hwakes]
    refine ⟨fun n hn => hwakes ▸ h.seen_le n hn, ?_, fun hdue => ?_⟩
    · simp [hawake, unheard_snoc, hrings, hlistens, h.awake_iff]
    · exact hawake ▸ h.alert (hshift.due_of_due hrings hdue)

/-- A waiter that begins to listen hears what comes from now on; it stalls, or it has looked. -/
theorem Attends.listen (w : Waiter) {stalled : Bool} (hlistens : e.Listens i) (hrings : ¬ e.Rings)
    (hstalled : stalled = true ∨ ¬ w.waitsFor.Due s) :
    Attends i (τ ++ [e]) s ⟨{ w with seen := some s.wakes }, stalled⟩ where
  seen_le := by
    rintro n ⟨⟩
    exact Nat.le_refl _
  awake_iff := by simp [Waiter.awake, unheard_snoc, hlistens, hrings]
  alert hdue := hstalled.imp_right fun hvain => absurd hdue hvain

/-- A poll in vain leaves the waiter asleep, unless it was woken while its poll had stalled. -/
theorem Attends.poll (h : Attends i τ s p) (hpending : (p.poll s).1 = .pending) :
    Attends i (τ ++ [.polled i p.stalled .pending]) (p.poll s).2.2 (p.poll s).2.1 := by
  have hpolled := p.polled s
  generalize p.poll s = outcome at hpolled hpending
  cases hpolled with
  | sleeps hstalled hasleep =>
    refine ⟨h.seen_le, ?_, h.alert⟩
    simp [hasleep, hstalled, unheard_snoc, Event.Rings, Event.Listens]
  | looks hstalled hawake hglance =>
    obtain rfl : _ = Look.pending := hpending
    cases hglance with
    | inVain hdue => exact .listen p.waiter ⟨rfl, hstalled⟩ id (.inr hdue)
  | resumes hstalled hglance =>
    obtain rfl : _ = Look.pending := hpending
    cases hglance with
    | inVain hdue =>
      refine ⟨h.seen_le, ?_, fun hdue' => absurd hdue' hdue⟩
      simp [h.awake_iff, hstalled, unheard_snoc, Event.Rings, Event.Listens]

namespace Lobby

variable {l : Lobby S K} {act : Act S K} {acts : List (Act S K)}

theorem length_step (l : Lobby S K) (act : Act S K) :
    l.places.length ≤ (l.step act).2.places.length := by
  cases act with
  | await wait => simp [step]
  | drop i => simp [step]
  | poll i => cases hp : l.place? i <;> simp [step, hp]
  | stall i => cases hp : (l.place? i).bind (·.stall? l.slot) <;> simp [step, hp]
  | _ => exact Nat.le_refl _

theorem step_stall (hp : l.place? i = some p) (hstalled : p.stalled = false)
    (hawake : p.waiter.awake l.slot = true) :
    l.step (.stall i) = (.stalled i, { l with
      places := l.places.set i (some ⟨{ p.waiter with seen := some l.slot.wakes }, true⟩) }) := by
  simp [step, hp, Place.stall?, hstalled, hawake]

inductive Remains (l : Lobby S K) (i : Nat) : Act S K → Place → Prop
  | came (wait : Wait) (hi : i = l.places.length) :
      Remains l i (.await wait) ⟨.start wait, false⟩
  | polled {p : Place} (hp : l.place? i = some p) (hpending : (p.poll l.slot).1 = .pending) :
      Remains l i (.poll i) (p.poll l.slot).2.1
  | stalled {p : Place} (hp : l.place? i = some p) (hstalled : p.stalled = false)
      (hawake : p.waiter.awake l.slot = true) :
      Remains l i (.stall i) ⟨{ p.waiter with seen := some l.slot.wakes }, true⟩
  | stayed {act : Act S K} {p : Place} (hp : l.place? i = some p)
      (hlistens : ¬ (l.step act).1.Listens i) : Remains l i act p

theorem remains_of_step (h : (l.step act).2.place? i = some p) : Remains l i act p := by
  cases act with
  | await wait =>
    rcases Nat.lt_trichotomy i l.places.length with hi | rfl | hi
    · have hp : l.place? i = some p := by
        simpa [step, place?, List.getElem?_append_left hi] using h
      exact .stayed hp id
    · obtain rfl : ⟨.start wait, false⟩ = p := by simpa [step, place?] using h
      exact .came wait rfl
    · exact absurd (lt_of_place? h) (by simp [step]; omega)
  | drop j =>
    refine .stayed ?_ id
    by_cases hj : j < l.places.length
    · simp only [step, place?_set _ _ hj] at h
      split at h
      · cases h
      · exact h
    · simpa [step, List.set_eq_of_length_le (Nat.le_of_not_lt hj)] using h
  | poll j =>
    cases hq : l.place? j with
    | none => exact .stayed (by simpa [step, hq] using h) (by simp [step, hq, Event.Listens])
    | some q =>
      rw [step_poll hq, place?_set _ _ (lt_of_place? hq)] at h
      split at h
      next hji =>
        subst hji
        cases hlook : (q.poll l.slot).1 with
        | pending =>
          obtain rfl : (q.poll l.slot).2.1 = p := by simpa [hlook, Look.keep] using h
          exact .polled hq hlook
        | cancelled | ready => simp [hlook, Look.keep] at h
      next hji => exact .stayed h (by simp [step_poll hq, Event.Listens, hji])
  | stall j =>
    cases hq : (l.place? j).bind (·.stall? l.slot) with
    | none => exact .stayed (by simpa [step, hq] using h) (by simp [step, hq, Event.Listens])
    | some q' =>
      obtain ⟨q, hq, hstall⟩ := Option.bind_eq_some_iff.1 hq
      obtain ⟨⟨hstalled, hawake⟩, -⟩ := Option.ite_some_none_eq_some.1 hstall
      rw [step_stall hq hstalled hawake, place?_set _ _ (lt_of_place? hq)] at h
      split at h
      next hji =>
        subst hji
        cases h
        exact .stalled hq hstalled hawake
      next hji => exact .stayed h (by simp [step_stall hq hstalled hawake, Event.Listens, hji])
  | _ => exact .stayed h id

theorem lt_of_listens (h : (l.step act).1.Listens i) : i < l.places.length := by
  cases act with
  | poll j =>
    cases hp : l.place? j with
    | none => simp [step, hp, Event.Listens] at h
    | some p =>
      obtain ⟨rfl, -⟩ : j = i ∧ p.stalled = false := by simpa [step_poll hp, Event.Listens] using h
      exact lt_of_place? hp
  | stall j =>
    cases hp : (l.place? j).bind (·.stall? l.slot) with
    | none => simp [step, hp, Event.Listens] at h
    | some p =>
      obtain rfl : j = i := by simpa [step, hp, Event.Listens] using h
      obtain ⟨p, hp, -⟩ := Option.bind_eq_some_iff.1 hp
      exact lt_of_place? hp
  | _ => exact h.elim

theorem not_listens_of_le (acts : List (Act S K)) (hi : (after acts).places.length ≤ i) :
    ∀ e ∈ history acts, ¬ e.Listens i := by
  induction acts using List.reverseRecOn with
  | nil => simp
  | append_singleton acts act ih =>
    rw [after_snoc] at hi
    have hle := Nat.le_trans ((after acts).length_step act) hi
    intro e he
    rw [history_snoc, List.mem_append, List.mem_singleton] at he
    rcases he with he | rfl
    · exact ih hle e he
    · exact fun hlistens => absurd (lt_of_listens hlistens) (Nat.not_lt.2 hle)

theorem attends (acts : List (Act S K)) (hp : (after acts).place? i = some p) :
    Attends i (history acts) (after acts).slot p := by
  induction acts using List.reverseRecOn generalizing p with
  | nil => simp at hp
  | append_singleton acts act ih =>
    rw [after_snoc] at hp
    have hshift := (after acts).shift act
    have hremains := remains_of_step hp
    rw [history_snoc, after_snoc]
    cases hremains with
    | came wait hi =>
      exact (Attends.start wait (not_listens_of_le acts (Nat.le_of_eq hi.symm))).shift hshift id
    | polled hbefore hpending =>
      rw [step_poll hbefore, hpending]
      exact (ih hbefore).poll hpending
    | stalled hbefore hstalled hawake =>
      rw [step_stall hbefore hstalled hawake]
      exact .listen _ rfl id (.inl rfl)
    | stayed hbefore hlistens => exact (ih hbefore).shift hshift hlistens

theorem place?_step (hp : l.place? i = some p)
    (hact : act ≠ .poll i ∧ act ≠ .stall i ∧ act ≠ .drop i) :
    (l.step act).2.place? i = some p := by
  obtain ⟨hpoll, hstall, hdrop⟩ := hact
  cases act with
  | await wait => simpa [step, place?, List.getElem?_append_left (lt_of_place? hp)] using hp
  | drop j =>
    have hji : j ≠ i := fun h => hdrop (h ▸ rfl)
    simpa [step, place?_set_of_ne _ _ hji] using hp
  | poll j =>
    have hji : j ≠ i := fun h => hpoll (h ▸ rfl)
    cases hq : l.place? j with
    | none => simpa [step, hq] using hp
    | some q => simpa [step_poll hq, place?_set_of_ne _ _ hji] using hp
  | stall j =>
    have hji : j ≠ i := fun h => hstall (h ▸ rfl)
    cases hq : (l.place? j).bind (·.stall? l.slot) with
    | none => simpa [step, hq] using hp
    | some q => simpa [step, hq, place?_set_of_ne _ _ hji] using hp
  | _ => exact hp

/-- What a waiter waits for stays there until something withdraws it. -/
theorem due_run (hp : l.place? i = some p) (hdue : p.waiter.waitsFor.Due l.slot)
    (hacts : ∀ act ∈ acts, act ≠ .poll i ∧ act ≠ .stall i ∧ act ≠ .drop i) :
    (∃ e ∈ (l.run acts).1, e.Withdraws) ∨
      (l.run acts).2.place? i = some p ∧ p.waiter.waitsFor.Due (l.run acts).2.slot := by
  induction acts generalizing l with
  | nil => exact .inr ⟨hp, hdue⟩
  | cons act acts ih =>
    by_cases hwithdraws : (l.step act).1.Withdraws
    · exact .inl ⟨_, List.mem_cons_self, hwithdraws⟩
    · have hrest := ih (place?_step hp (hacts act List.mem_cons_self))
        ((l.shift act).due hwithdraws hdue) fun act' hact' => hacts act' (.tail act hact')
      exact hrest.imp_left fun ⟨e, he, hwithdraws⟩ => ⟨e, .tail _ he, hwithdraws⟩

end Lobby

theorem Glance.ne_pending {look : Look S K} (h : Glance wait s look s') (hdue : wait.Due s) :
    look ≠ .pending := by
  cases h with
  | inVain hvain => exact absurd hdue hvain
  | gone | takes => simp

theorem Place.poll_ne_pending (halert : p.stalled = true ∨ p.waiter.awake s = true)
    (hdue : p.waiter.waitsFor.Due s) : (p.poll s).1 ≠ .pending := by
  have hpolled := p.polled s
  generalize p.poll s = outcome at hpolled
  cases hpolled with
  | sleeps hstalled hasleep => simp [hstalled, hasleep] at halert
  | looks _ _ hglance | resumes _ hglance => exact hglance.ne_pending hdue

open Lobby

/-- Whoever could be answered has a wake-up that it has not heard, or stalled on its way to look.
Whatever is done before it is polled next, it is answered then, unless what it waits for was
withdrawn. -/
theorem answered_at_next_poll (acts : List (Act S K)) (i : Nat) (p : Place)
    (hwaits : (after acts).place? i = some p) (hdue : p.waiter.waitsFor.Due (after acts).slot) :
    (p.stalled = true ∨ Unheard i (history acts)) ∧
    ∀ more, (∀ act ∈ more, act ≠ .poll i ∧ act ≠ .stall i ∧ act ≠ .drop i) →
      (∃ e ∈ ((after acts).run more).1, e.Withdraws) ∨
      ∃ look, look ≠ .pending ∧
        ((after (acts ++ more)).step (.poll i)).1 = .polled i p.stalled look := by
  have hattends := attends acts hwaits
  refine ⟨(hattends.alert hdue).imp_right hattends.awake_iff.1, fun more hmore => ?_⟩
  rcases due_run hwaits hdue hmore with hwithdrawn | ⟨hstill, hdue⟩
  · exact .inl hwithdrawn
  · rw [← after_append] at hstill hdue
    have halert := (attends _ hstill).alert hdue
    exact .inr ⟨_, Place.poll_ne_pending halert hdue, by rw [step_poll hstill]⟩

/-- The poll of the second worker has stalled when a transfer is installed, and it looks in vain
when the transfer is gone; but it has listened, and the next transfer does not escape it. -/
theorem answered_second_worker :
    let acts : List (Act Nat Nat) := [.rearm, .await .transfer, .poll 0, .await .transfer,
      .stall 1, .install .sendFile (.source 7), .poll 0, .poll 1, .install .receiveFile (.sink 3)]
    let p : Place := ⟨⟨.transfer, some 0⟩, false⟩
    (after acts).place? 1 = some p ∧ p.waiter.waitsFor.Due (after acts).slot ∧
    (p.stalled = true ∨ Unheard 1 (history acts)) ∧
    ∀ more, (∀ act ∈ more, act ≠ .poll 1 ∧ act ≠ .stall 1 ∧ act ≠ .drop 1) →
      (∃ e ∈ ((after acts).run more).1, e.Withdraws) ∨
      ∃ look, look ≠ .pending ∧
        ((after (acts ++ more)).step (.poll 1)).1 = .polled 1 p.stalled look :=
  ⟨rfl, .inr ⟨rfl, .receiveFile, .sink 3, rfl⟩,
    answered_at_next_poll _ 1 _ rfl (.inr ⟨rfl, .receiveFile, .sink 3, rfl⟩)⟩

end Slot

end FtpServer
