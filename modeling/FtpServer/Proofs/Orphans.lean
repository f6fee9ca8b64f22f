import FtpServer.Proofs.EmptySlot
import FtpServer.Proofs.Replay

/-!
# Orphaned transfers

A transfer in the slot is served by a worker that the session has not forgotten, unless a data
command raced with a worker that was leaving.
-/

namespace FtpServer

open Program Dialogue Scene

namespace Scene

/-- A data command went on past a worker that left between its two looks at the slot. -/
def Races (τ : List Event) : Prop := τ.foldl Gate.next .shut = .raced

instance (τ : List Event) : Decidable (Races τ) := inferInstanceAs (Decidable (_ = _))

/-- A transfer is in the slot, and everybody who could have taken it has left. -/
structure Orphaned (s : Scene) : Prop where
  inProgress : s.shared.slot.inProgress = true
  armed : s.shared.slot.armed = false
  allGone : s.AllGone

variable {α : Type} {p p' : Dialogue α} {s s' : Scene} {τ : List Event}

/-- The session holds worker `n`, or has let go of it only to stop it. -/
def HoldsOrStops (p : Dialogue α) (s : Scene) (n : Nat) : Prop :=
  s.held = some n ∨ (∃ k, p = .ask .cancel k) ∨ ∃ k, p = .ask (.joinWorker n) k

/-- A worker serves the slot, and the session has not forgotten it. -/
structure Served (p : Dialogue α) (s : Scene) : Prop where
  armed : s.shared.slot.armed = true
  worker : ∃ n w, s.workers[n]? = some w ∧ w.Serves s.shared ∧ HoldsOrStops p s n

theorem race_of_traced {a b : Dialogue α × Scene} (h : Traced a τ b) (hτ : Races τ) :
    ∃ τ₁ τ₂ transfer k s₁, τ = τ₁ ++ .asked (.install transfer) () :: τ₂ ∧
      τ₁.foldl Gate.next .shut = .past ∧ Traced a τ₁ (.ask (.install transfer) k, s₁) ∧
      Traced (k (), s₁.withSlot (s₁.shared.slot.install transfer)) τ₂ b := by
  unfold Races at hτ
  induction h with
  | refl => cases hτ
  | @tail b c τ e hbefore htells ih =>
    rw [List.foldl_append, List.foldl_cons, List.foldl_nil] at hτ
    by_cases hraced : τ.foldl Gate.next .shut = .raced
    · obtain ⟨τ₁, τ₂, transfer, k, s₁, rfl, hpast, hfirst, hrest⟩ := ih hraced
      exact ⟨τ₁, τ₂ ++ [e], transfer, k, s₁, by simp, hpast, hfirst, hrest.tail htells⟩
    · cases htells with
      | @session q k s₁ _ r hanswer =>
        rw [Gate.next_asked] at hτ
        obtain ⟨hpast, transfer, rfl⟩ := Gate.past_of_ask_raced hτ hraced
        obtain ⟨-, rfl⟩ := Prod.mk.inj (Option.some.inj hanswer)
        exact ⟨τ, [], transfer, k, s₁, rfl, hpast, hbefore, .refl _⟩
      | worker number m hmove => exact absurd (Gate.next_moved_eq_raced.1 hτ) hraced
      | time ms =>
        rw [Gate.next_passed] at hτ
        exact absurd hτ hraced

theorem MayAskSlot.served {g : Gate} {q : Request} {k : q.Answer → Dialogue α}
    (h : s.MayAskSlot g q)
    (hbusy : s.shared.slot.inProgress = true) : Served (.ask q k) s := by
  have hfull : s.shared.slot.handle ≠ none := fun hnone => by
    rw [Slot.inProgress_eq_false.2 hnone] at hbusy
    cases hbusy
  have hserved : ∀ n, s.Attends n → HoldsOrStops (.ask q k) s n → Served (.ask q k) s :=
    fun n hattends hholds => by
      obtain ⟨w, hw, hatSlot⟩ := hattends.worker
      exact ⟨hattends.armed, n, w, hw, hatSlot.serves_transfer hbusy, hholds⟩
  have hsound : s.Sound → Served (.ask q k) s := fun hsound => by
    cases hsound with
    | alone _ hretired | outlived _ _ hretired => exact absurd hretired.handle hfull
    | attended n hheld hattends => exact hserved n hattends (.inl hheld)
  cases q with
  | cancel =>
    rcases h with ⟨n, hattends⟩ | hretired
    · exact hserved n hattends (.inr (.inl ⟨k, rfl⟩))
    · exact absurd hretired.handle hfull
  | joinWorker n =>
    rcases h with hattends | hretired
    · exact hserved n hattends (.inr (.inr ⟨k, rfl⟩))
    · exact absurd hretired.handle hfull
  | finish | rearm | startWorker => exact absurd h.handle hfull
  | install =>
    obtain ⟨n, hready⟩ := h
    exact absurd hready.handle hfull
  | _ => exact hsound h

/-- Where the slot is in order, a transfer ends only by the leaving of a worker. -/
theorem MayAskSlot.ends {g : Gate} {q : Request} {k : q.Answer → Dialogue α} (h : s.MayAskSlot g q)
    (hbusy : s.shared.slot.inProgress = true) {e : Event} {b : Dialogue α × Scene}
    (htells : Tells (.ask q k, s) e b) (hends : b.2.shared.slot.inProgress = false) :
    ∃ n m, e = .moved n m ∧ m.leavesSlot = true := by
  have hfull : s.shared.slot.handle ≠ none := fun hnone => by
    rw [Slot.inProgress_eq_false.2 hnone] at hbusy
    cases hbusy
  cases htells with
  | @session _ _ _ s' r hanswer =>
    have hempty := Slot.inProgress_eq_false.1 hends
    rcases handle_of_perform hanswer with hsame | ⟨rfl | rfl, -⟩ | ⟨transfer, rfl⟩
    · exact absurd (hsame.symm.trans hempty) hfull
    · exact absurd h.handle hfull
    · exact absurd h.handle hfull
    · obtain ⟨n, hready⟩ := h
      exact absurd hready.handle hfull
  | worker number m hmove =>
    refine ⟨number, m, rfl, ?_⟩
    have hstays := inProgress_of_moveWorker hmove
    rw [hends, hbusy, Bool.true_and] at hstays
    simpa using hstays.symm
  | time ms =>
    have hsame : s.shared.slot.inProgress = false := hends
    rw [hbusy] at hsame
    cases hsame

end Scene

namespace Session

variable {ctx : Context} {address : Socket} {lines : List Line.Incoming} {s s' : Scene}
variable {τ : List Event} {p : Dialogue Unit}

/-- As long as no race is lost, everything is asked where the slot bears it. -/
theorem slotRules_of_traced {q : Request} {k : q.Answer → Dialogue Unit} (hs : s.Left none)
    (hrun : Traced (serve ctx address lines, s) τ (.ask q k, s')) (hτ : ¬ Races τ) :
    s'.MayAskSlot (τ.foldl Gate.next .shut) q := by
  rcases hrun.asked (serve_slotSafe ctx address lines hs) with hraced | hmayAsk
  · exact absurd hraced hτ
  · exact hmayAsk

theorem retired_of_done (hs : s.Left none)
    (hrun : Traced (serve ctx address lines, s) τ (.done (), s')) (hτ : ¬ Races τ) :
    s'.Retired := by
  obtain ⟨t, hdrift, hpost⟩ := hrun.meets (serve_slotSafe ctx address lines hs)
  rcases hpost with hraced | hleft
  · have hlast : KeptByMoves fun _ g => g = .raced :=
      ⟨fun h _ => Gate.next_moved_eq_raced.2 h, fun h _ => h⟩
    exact absurd (hlast.drift hraced hdrift) hτ
  · exact ((keptBySpared_left none).drift hleft hdrift).2.2

theorem cleared_of_ends {α : Type} {d : Dialogue α} {k : α → Dialogue Unit} {a : α} {s₂ : Scene}
    (hs : s.Left none) (hrun : Traced (serve ctx address lines, s) τ (d >>= k, s'))
    (hτ : ¬ Races τ) (hd : EndsTransfers d) (hsteps : Steps (d, s') (.done a, s₂)) :
    Cleared ctx (k a) s₂ := by
  obtain ⟨q, f, rfl, hq⟩ := hd.asks
  have hmayAsk : s'.MayAskSlot (τ.foldl Gate.next .shut) q := slotRules_of_traced hs hrun hτ
  have hsound : s'.Sound := by
    rcases hq with rfl | rfl <;> exact hmayAsk
  exact cleared_of_handle (hd.handle ⟨hτ, trivial, hsound⟩ hsteps)

theorem orphaned_of_races (hs : s.Left none)
    (hrun : Traced (serve ctx address lines, s) τ (p, s')) (hτ : Races τ) :
    ∃ τ₁ τ₂ p₁ s₁, τ = τ₁ ++ τ₂ ∧ Traced (serve ctx address lines, s) τ₁ (p₁, s₁) ∧
      s₁.Orphaned ∧ Traced (p₁, s₁) τ₂ (p, s') := by
  obtain ⟨τ₁, τ₂, transfer, k, s₁, rfl, hpast, hfirst, hrest⟩ := race_of_traced hrun hτ
  have hunraced : ¬ Races τ₁ := fun hraced => by
    rw [Races, hpast] at hraced
    cases hraced
  have hretired : s₁.Retired := by
    obtain ⟨n, hready⟩ := slotRules_of_traced hs hfirst hunraced
    exact Ready.retired (hpast ▸ hready)
  have hinstalled : Traced (serve ctx address lines, s) (τ₁ ++ [.asked (.install transfer) ()])
      (k (), s₁.withSlot (s₁.shared.slot.install transfer)) := hfirst.tail (.session rfl)
  exact ⟨_, τ₂, _, _, by simp, hinstalled, ⟨rfl, hretired.armed, hretired.allGone⟩, hrest⟩

/-- Unless a data command goes on past a worker that leaves between its two looks at the slot, every
transfer in the slot is served by a live worker that the session has not forgotten, only the leaving
of that worker ends it, and `ABOR`, `QUIT` and the end of the session leave the slot empty, so that
no later `PORT` or `PASV` is refused.  Where a data command does go on past it, its transfer is
orphaned. -/
theorem transfers_served_unless_raced
    (hs : s.shared.slot = .fresh ∧ s.workers = [] ∧ s.held = none)
    (hrun : Traced (serve ctx address lines, s) τ (p, s')) :
    (¬ Races τ →
      (s'.shared.slot.inProgress = true → Served p s' ∧
        ∀ e b, Tells (p, s') e b → b.2.shared.slot.inProgress = false →
          ∃ n m, e = .moved n m ∧ m.leavesSlot = true) ∧
      ∀ {α : Type} (d : Dialogue α) (k : α → Dialogue Unit), EndsTransfers d → p = d >>= k →
        ∀ a s₂, Steps (d, s') (.done a, s₂) → Cleared ctx (k a) s₂) ∧
    (Races τ → ∃ τ₁ τ₂ p₁ s₁, τ = τ₁ ++ τ₂ ∧ Traced (serve ctx address lines, s) τ₁ (p₁, s₁) ∧
      s₁.Orphaned ∧ Traced (p₁, s₁) τ₂ (p, s')) := by
  have hleft := left_of_fresh hs
  refine ⟨fun hτ => ⟨fun hbusy => ?_, fun d k hd hp a s₂ hsteps => ?_⟩,
    orphaned_of_races hleft hrun⟩
  · cases p with
    | done =>
      have hnone := (retired_of_done hleft hrun hτ).handle
      rw [Slot.inProgress_eq_false.2 hnone] at hbusy
      cases hbusy
    | ask q k =>
      have hmayAsk := slotRules_of_traced hleft hrun hτ
      exact ⟨hmayAsk.served hbusy, fun e b htells hends => hmayAsk.ends hbusy htells hends⟩
  · subst hp
    exact cleared_of_ends hleft hrun hτ hd hsteps

theorem look_top : Tree.bare.look ⟨"/", []⟩ = .ok .directory := rfl

def bareScene : Scene := { Scene.start Tree.bare {} with lister := .fixed [] }

def persistentClient : List Line.Incoming :=
  [.line "USER anonymous", .line "PASS guest", .line "PASV", .line "LIST", .line "LIST",
    .line "LIST", .line "ABOR", .line "PASV"]

def persistentSession : Dialogue Unit := serve (usualContext "/") loopback persistentClient

def answersAtTop : Answers := knowing Tree.bare ⟨"/", []⟩ .directory look_top

/-- The first listing is installed, and its worker has only to leave the slot. -/
def upToLeaving : List Choice :=
  List.replicate 34 .session ++
    [.worker 0 .look, .worker 0 (.connectFails .brokenPipe), .worker 0 .lock]

/-- The worker leaves between the two looks of the second `LIST`. -/
def pastLeaving : List Choice :=
  upToLeaving ++ List.replicate 3 .session ++ [.worker 0 .release, .session] ++
    [.worker 0 .report, .worker 0 .unlock] ++ List.replicate 6 .session

theorem transfers_served_unless_raced_up_to_leaving :
    ∃ τ p s', Traced (persistentSession, bareScene) τ (p, s') ∧ ¬ Races τ ∧
      s'.shared.slot.inProgress = true ∧ Served p s' := by
  have hrun : (replay answersAtTop upToLeaving (persistentSession, bareScene)).any
      (fun r => !decide (Races r.1) && r.2.2.shared.slot.inProgress) = true := by
    decide +kernel
  obtain ⟨τ, ⟨p, s'⟩, hτ, htest⟩ := traced_of_any hrun
  simp only [Bool.and_eq_true, Bool.not_eq_true', decide_eq_false_iff_not] at htest
  obtain ⟨hunraced, hbusy⟩ := htest
  have hall := transfers_served_unless_raced ⟨rfl, rfl, rfl⟩ hτ
  exact ⟨τ, p, s', hτ, hunraced, hbusy, ((hall.1 hunraced).1 hbusy).1⟩

/-- The second listing is orphaned; then `ABOR` leaves it where it is, and `PASV` is refused. -/
theorem transfer_orphaned_past_leaving :
    ∃ τ p s τ' p' s', Traced (persistentSession, bareScene) τ (p, s) ∧ s.Orphaned ∧
      Traced (p, s) τ' (p', s') ∧ s'.shared.slot.inProgress = true ∧
      s'.shared.control.sent.map (fun (_, reply) => reply.code) =
        [220, 331, 230, 227, 150, 425, 150, 226, 503] := by
  have hrun : (replay answersAtTop pastLeaving (persistentSession, bareScene)).any
      (fun r => r.2.2.shared.slot.inProgress && !r.2.2.shared.slot.armed &&
        r.2.2.workers.all (fun w => w.phase.stage = .gone) &&
        (replay answersAtTop (List.replicate 20 .session) r.2).any fun r' =>
          r'.2.2.shared.slot.inProgress &&
          r'.2.2.shared.control.sent.map (fun (_, reply) => reply.code) ==
            [220, 331, 230, 227, 150, 425, 150, 226, 503]) = true := by
    decide +kernel
  obtain ⟨τ, ⟨p, s⟩, hτ, htest⟩ := traced_of_any hrun
  simp only [Bool.and_eq_true, Bool.not_eq_true'] at htest
  obtain ⟨⟨⟨hbusy, harmed⟩, hgone⟩, hlater⟩ := htest
  obtain ⟨τ', ⟨p', s'⟩, hτ', htest'⟩ := traced_of_any hlater
  simp only [Bool.and_eq_true, beq_iff_eq] at htest'
  have hallGone : s.AllGone := fun i w hw =>
    of_decide_eq_true (List.all_eq_true.1 hgone w (List.mem_of_getElem? hw))
  exact ⟨τ, p, s, τ', p', s', hτ, ⟨hbusy, harmed, hallGone⟩, hτ', htest'⟩

end Session

end FtpServer
