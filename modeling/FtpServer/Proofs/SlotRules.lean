import FtpServer.Proofs.DispatchCases
import FtpServer.Proofs.Gate
import FtpServer.Proofs.Workers

/-!
# The rules of the transfer slot

Whatever its workers do meanwhile, a session asks for what the slot can bear and leaves it in order,
until it loses a race.
-/

namespace FtpServer

open Program Dialogue Scene

def Scene.MayAskSlot (s : Scene) (g : Gate) : Request → Prop
  | .cancel => (∃ n, s.Attends n) ∨ s.Retired
  | .joinWorker n => s.Attends n ∨ s.Retired
  | .finish | .rearm => s.Retired
  | .startWorker _ => s.Rearmed
  | .install _ => ∃ n, Ready n s g
  | _ => s.Sound

/-- The rules of a slot that is shared with workers. -/
def Scene.slotRules : Rules Request.Answer (Scene × Gate) :=
  watched Gate.next fun q t => t.2 = .raced ∨ t.1.MayAskSlot t.2 q

namespace Session

variable {ctx : Context} {c c' : Client} {α β : Type} {s s' : Scene} {g : Gate}
variable {I : Scene → Gate → Prop} {Q : Option Nat → Prop}

/-- The dialogue asks by the rules, and its result satisfies `post`. -/
abbrev SlotSafe (post : α → Scene → Gate → Prop) (p : Dialogue α) (s : Scene) (g : Gate) : Prop :=
  p.Meets slotRules (fun a t => post a t.1 t.2) (s, g)

variable {post post' : α → Scene → Gate → Prop}

theorem SlotSafe.bind {p : Dialogue α} {f : α → Dialogue β} {post' : β → Scene → Gate → Prop}
    (hp : SlotSafe post p s g) (hf : ∀ a s g, post a s g → SlotSafe post' (f a) s g) :
    SlotSafe post' (p >>= f) s g :=
  Meets.bind hp fun a t ha => hf a t.1 t.2 ha

theorem SlotSafe.mono {p : Dialogue α} (hp : SlotSafe post p s g)
    (hpost : ∀ a s g, post a s g → post' a s g) : SlotSafe post' p s g :=
  Meets.mono hp fun a t => hpost a t.1 t.2

theorem SlotSafe.question (hI : KeptByMoves I) (hs : I s g) {q : Request}
    {f : q.Answer → Dialogue α}
    (h : ∀ s g, I s g → (g = .raced ∨ s.MayAskSlot g q) ∧
      ∀ r s', s.perform? q = some (r, s') → SlotSafe post (f r) s' (g.ask q r)) :
    SlotSafe post (ask q done >>= f) s g := by
  refine meets_ask_of_stable (I := fun t : Scene × Gate => I t.1 t.2) (fun _ _ => hI.drift) hs
    fun t ht => ?_
  obtain ⟨hguard, hnext⟩ := h t.1 t.2 ht
  refine ⟨hguard, fun r u hu => ?_⟩
  obtain ⟨s', g'⟩ := u
  obtain ⟨hperform, rfl⟩ := hu
  rw [Gate.next_asked]
  exact hnext r s' hperform

/-- Once a race was lost nothing is asked of the session any more. -/
theorem slotSafe_of_raced (hpost : ∀ a s, post a s .raced) (p : Dialogue α) (s : Scene) :
    SlotSafe post p s .raced := by
  induction p generalizing s with
  | done a => exact hpost a s
  | ask q next ih =>
    have hraced : KeptByMoves fun _ g => g = .raced :=
      ⟨fun h _ => Gate.next_moved_eq_raced.2 h, fun h _ => h⟩
    refine SlotSafe.question hraced rfl fun s g hg => ⟨.inl hg, fun r s' _ => ?_⟩
    rw [hg, Gate.ask_raced]
    exact ih r s'

theorem SlotSafe.of_spared (hI : KeptBySpared I) (hsound : ∀ s g, I s g → s.Sound) {φ : α → Prop}
    {p : Dialogue α} (hp : p.Keeps (fun _ _ => True) (fun q => q.sparesSlot = true) φ)
    (hs : I s g) : SlotSafe (fun a s g => φ a ∧ I s g) p s g := by
  refine Keeps.meets (I := fun t : Scene × Gate => I t.1 t.2) hp (fun _ _ => hI.drift)
    (fun q t hq ht => ?_) hs
  refine ⟨.inr ?_, fun r u hu => ⟨trivial, ?_⟩⟩
  · cases q <;> first | exact hsound _ _ ht | cases hq
  · obtain ⟨hperform, hgate⟩ := hu
    rw [hgate, Gate.next_asked]
    exact hI.same (hI.spare ht hq) (same_of_spared hq hperform)

theorem SlotSafe.of_spares (hI : KeptBySpared I) (hsound : ∀ s g, I s g → s.Sound) {φ : α → Prop}
    {p : Dialogue α} (hp : Spares φ p) (hs : I s g) : SlotSafe (fun a s g => φ a ∧ I s g) p s g :=
  .of_spared hI hsound (hp.weaken (fun _ _ h => h) fun _ hq => hq.1) hs

theorem SlotSafe.of_onlyControl (hI : KeptBySpared I) (hsound : ∀ s g, I s g → s.Sound)
    {φ : α → Prop}
    {p : Dialogue α} (hp : OnlyControl (fun _ _ => True) φ p) (hs : I s g) :
    SlotSafe (fun a s g => φ a ∧ I s g) p s g :=
  .of_spared hI hsound
    (hp.weaken (fun _ _ h => h) fun q hq => by cases q <;> first | rfl | cases hq)
    hs

theorem SlotSafe.of_onlyFileCalls (hI : KeptBySpared I) (hsound : ∀ s g, I s g → s.Sound)
    {φ : α → Prop}
    {p : Dialogue α} {root : String} (hp : OnlyFileCalls (fun _ _ => True) root φ p) (hs : I s g) :
    SlotSafe (fun a s g => φ a ∧ I s g) p s g :=
  .of_spares hI hsound (OnlyFileCalls.spares hp) hs

abbrev BetweenCommands (c : Client) : Scene → Gate → Prop :=
  Unraced (SoundWith fun held => c.dataMode ≠ .none → held.isSome = true)

theorem betweenCommands_of_left (hmode : c.dataMode = .none) (hs : Unraced (Left none) s g) :
    BetweenCommands c s g := ⟨hs.1, fun hne => absurd hmode hne, hs.2.sound⟩

/-- A worker that is told to stop leaves the slot, and nobody attends it then. -/
theorem endWorker_slotSafe (c : Client) {n : Nat} (hs : Unraced (Stopping n) s g) :
    SlotSafe (fun c' s g => c' = c.withMode .none ∧ Unraced (Left none) s g)
      (do cancel; joinWorker n; finish; return c.withMode .none) s g := by
  refine SlotSafe.question (keptBySpared_stopping n).toKeptByMoves hs fun s g hs => ?_
  refine ⟨.inr (hs.2.2.imp_left fun h => ⟨n, h⟩), ?_⟩
  rintro _ _ ⟨⟩
  have hcancelled : Unraced (Stopping n) (s.withSlot s.shared.slot.cancel) (g.ask .cancel ()) :=
    ⟨Gate.ask_ne_raced hs.1 (by simp), hs.2.cancel⟩
  refine SlotSafe.question (keptBySpared_stopping n).toKeptByMoves hcancelled fun s g hs => ?_
  refine ⟨.inr hs.2.2, fun _ s' hperform => ?_⟩
  obtain ⟨rfl, hleft⟩ := hs.2.join hperform
  have hleft : Unraced (Left none) s' (g.ask (.joinWorker n) ()) :=
    ⟨Gate.ask_ne_raced hs.1 (by simp), hleft⟩
  refine SlotSafe.question (keptBySpared_left none).toKeptByMoves hleft fun s g hs => ?_
  refine ⟨.inr hs.2.2, ?_⟩
  rintro _ _ ⟨⟩
  exact ⟨rfl, Gate.ask_ne_raced hs.1 (by simp), hs.2.finish⟩

theorem stopWorker_slotSafe (hs : Unraced (SoundWith Q) s g) :
    SlotSafe (fun c' s g => c' = c.withMode .none ∧ Unraced (Left none) s g) (stopWorker c)
      s g := by
  refine SlotSafe.question (keptBySpared_soundWith Q).toKeptByMoves hs fun s g hs =>
    ⟨.inr hs.2.2, ?_⟩
  intro (held : Option Nat) s' hperform
  obtain ⟨hheld, rfl⟩ := Prod.mk.inj (Option.some.inj hperform)
  have hg : g.ask .letGoWorker held ≠ .raced := Gate.ask_ne_raced hs.1 (by simp)
  cases held with
  | none => exact ⟨rfl, hg, (hs.2.2.retired hheld).letGo⟩
  | some n => exact endWorker_slotSafe c ⟨hg, hs.2.2.letGo hheld⟩

theorem startWorker_slotSafe (hs : Unraced (SoundWith Q) s g) (endpoint : Endpoint)
    (mode : DataMode) :
    SlotSafe (fun c' s g => c' = c.withMode mode ∧ BetweenCommands c' s g)
      (Session.startWorker c endpoint mode) s g := by
  refine (stopWorker_slotSafe hs).bind fun c' s g ⟨hc', hs⟩ => ?_
  subst hc'
  refine SlotSafe.question (keptBySpared_left none).toKeptByMoves hs fun s g hs => ⟨.inr hs.2.2, ?_⟩
  rintro _ _ ⟨⟩
  have hrearmed : Unraced Rearmed (s.withSlot s.shared.slot.rearm) (g.ask .rearm ()) :=
    ⟨Gate.ask_ne_raced hs.1 (by simp), hs.2.1, hs.2.2.allGone, rfl, rfl, rfl⟩
  refine SlotSafe.question keptBySpared_rearmed.toKeptByMoves hrearmed fun s g hs => ⟨.inr hs.2, ?_⟩
  rintro _ _ ⟨⟩
  have hattends := hs.2.allGone.start hs.2.armed hs.2.handle hs.2.cancelled endpoint
    (some s.workers.length)
  exact ⟨rfl, Gate.ask_ne_raced hs.1 (by simp), fun _ => rfl,
    .attended s.workers.length rfl hattends hs.2.cancelled⟩

/-- A worker that has left is forgotten; one that stays was seen. -/
theorem reapWorker_slotSafe (hs : BetweenCommands c s g) :
    SlotSafe (fun c' s g => Reaps c c' ∧
      (c'.dataMode = .none ∧ Unraced (Left none) s g ∨ ∃ n, Seen n s g)) (reapWorker c) s g := by
  refine SlotSafe.question (keptBySpared_soundWith _).toKeptByMoves hs fun s g hs =>
    ⟨.inr hs.2.2, ?_⟩
  rintro _ _ ⟨⟩
  have hg : g.ask .holdsWorker s.held.isSome ≠ .raced := Gate.ask_ne_raced hs.1 (by simp)
  split
  next hsome =>
    obtain ⟨n, hheld⟩ := Option.isSome_iff_exists.1 hsome
    have hkept : SoundWith (· = some n) s := ⟨hheld, hs.2.2⟩
    have hunraced : Unraced (SoundWith (· = some n)) s (g.ask .holdsWorker s.held.isSome) :=
      ⟨hg, hkept⟩
    refine SlotSafe.question (keptBySpared_soundWith _).toKeptByMoves hunraced fun s g hs =>
      ⟨.inr hs.2.2, ?_⟩
    intro (armed : Bool) s' hperform
    obtain ⟨harmed, rfl⟩ := Prod.mk.inj (Option.some.inj hperform)
    have hg : g.ask .isArmed armed ≠ .raced := Gate.ask_ne_raced hs.1 (by simp)
    cases armed with
    | true =>
      obtain ⟨hattends, huncancelled⟩ := hs.2.2.attends harmed hs.2.1
      exact ⟨.inl rfl, .inr ⟨n, hs.2.1, .inl ⟨Gate.ask_isArmed hs.1, hattends, huncancelled⟩⟩⟩
    | false =>
      have hleft : Unraced (Left (some n)) s (g.ask .isArmed false) :=
        ⟨hg, hs.2.1, hs.2.2.retired_of_disarmed harmed⟩
      refine SlotSafe.question (keptBySpared_left _).toKeptByMoves hleft fun s g hs =>
        ⟨.inr hs.2.sound, ?_⟩
      rintro _ _ ⟨⟩
      exact ⟨.inr rfl, .inl ⟨rfl, Gate.ask_ne_raced hs.1 (by simp), hs.2.2.letGo⟩⟩
  next hnone =>
    have hheld : s.held = none := by simpa using hnone
    have hmode : c.dataMode = .none := by
      by_cases hmode : c.dataMode = .none
      · exact hmode
      · exact absurd (hs.2.1 hmode) hnone
    exact ⟨.inl rfl, .inl ⟨hmode, hg, hheld, hs.2.2.retired hheld⟩⟩

/-- Nothing is in progress: there is no worker and no data mode, or a transfer can be installed. -/
def Free (c : Client) (s : Scene) (g : Gate) : Prop :=
  c.dataMode = .none ∧ Unraced (Left none) s g ∨ ∃ n, Ready n s g

theorem Free.betweenCommands (h : Free c s g) : BetweenCommands c s g := by
  rcases h with ⟨hmode, hg, hleft⟩ | ⟨n, hready⟩
  · exact betweenCommands_of_left hmode ⟨hg, hleft⟩
  · exact ⟨hready.unraced, fun _ => hready.held ▸ rfl, hready.sound⟩

/-- The two looks at the slot before `PORT`, `PASV` and the commands that open a transfer. -/
theorem gate_slotSafe {k : Client → Bool → Dialogue α} (hs : BetweenCommands c s g)
    (hbusy : ∀ c' s g, Reaps c c' → BetweenCommands c' s g → SlotSafe post (k c' true) s g)
    (hfree : ∀ c' s g, Reaps c c' → Free c' s g → SlotSafe post (k c' false) s g) :
    SlotSafe post (reapWorker c >>= fun c => isInProgress >>= k c) s g := by
  refine (reapWorker_slotSafe hs).bind fun c' s g ⟨hreaps, hs⟩ => ?_
  rcases hs with ⟨hmode, hs⟩ | ⟨n, hs⟩
  · refine SlotSafe.question (keptBySpared_left none).toKeptByMoves hs fun s g hs =>
      ⟨.inr hs.2.sound, ?_⟩
    intro (busy : Bool) s' hperform
    obtain ⟨hbusy', rfl⟩ := Prod.mk.inj (Option.some.inj hperform)
    obtain rfl : false = busy := (Slot.inProgress_eq_false.2 hs.2.2.handle).symm.trans hbusy'
    exact hfree c' s _ hreaps (.inl ⟨hmode, Gate.ask_ne_raced hs.1 (by simp), hs.2⟩)
  · refine SlotSafe.question (keptByMoves_seen n) hs fun s g hs => ⟨.inr hs.sound, ?_⟩
    intro (busy : Bool) s' hperform
    obtain ⟨hbusy', rfl⟩ := Prod.mk.inj (Option.some.inj hperform)
    have hg : g ≠ .raced := by
      rintro rfl
      rcases hs.stands with ⟨hgate, -⟩ | ⟨hgate, -⟩ <;> cases hgate
    cases busy with
    | true =>
      exact hbusy c' s _ hreaps
        ⟨Gate.ask_ne_raced hg (by simp), fun _ => hs.held ▸ rfl, hs.sound⟩
    | false =>
      have hnone := Slot.inProgress_eq_false.1 hbusy'
      refine hfree c' s _ hreaps (.inr ⟨n, hs.held, ?_⟩)
      rcases hs.stands with ⟨rfl, hattends, huncancelled⟩ | ⟨rfl, hretired⟩
      · exact .inl ⟨rfl, hattends, huncancelled, hnone⟩
      · exact .inr ⟨rfl, hretired⟩

/-- A command is through: the slot is in order, and what is to be installed can be. -/
structure SlotReady (r : Client × Outcome) (s : Scene) (g : Gate) : Prop where
  plain : r.1.IsPlain
  rests : r.2.transfer = none ∧ BetweenCommands r.1 s g ∨ r.2.IsUntaken ∧ ∃ n, Ready n s g

theorem SlotReady.of_quiet {r : Client × Outcome} (hc : r.1.IsPlain) (ho : r.2.transfer = none)
    (hs : BetweenCommands r.1 s g) : SlotReady r s g := ⟨hc, .inl ⟨ho, hs⟩⟩

theorem BetweenCommands.of_onlyControl {φ : α → Prop} {p : Dialogue α}
    (hp : OnlyControl (fun _ _ => True) φ p)
    (hs : BetweenCommands c s g) : SlotSafe (fun a s g => φ a ∧ BetweenCommands c s g) p s g :=
  .of_onlyControl (keptBySpared_soundWith _) (fun _ _ h => h.2.2) hp hs

theorem note_onlyControl (record : Record) :
    OnlyControl (fun _ _ => True) (fun _ => True) (note record) :=
  Keeps.question trivial fun _ _ => trivial

theorem onPort_slotSafe (hc : c.IsPlain) (hs : BetweenCommands c s g) (argument : String) :
    SlotSafe SlotReady (onPort c argument) s g := by
  refine gate_slotSafe hs (fun c' s g hreaps hs => ?_) fun c' s g hreaps hs => ?_
  · exact .of_quiet (hreaps.isPlain hc) rfl hs
  · have hc' := hreaps.isPlain hc
    simp only [Bool.false_eq_true, if_false]
    split
    next address _ =>
      refine (hs.betweenCommands.of_onlyControl (note_onlyControl _)).bind fun _ s g hs => ?_
      refine (startWorker_slotSafe hs.2 _ _).bind fun c'' s g ⟨hc'', hs⟩ => ?_
      subst hc''
      exact .of_quiet (hc'.withMode _) rfl hs
    next =>
      refine (hs.betweenCommands.of_onlyControl (note_onlyControl _)).bind fun _ s g hs => ?_
      exact .of_quiet hc' rfl hs.2

theorem onPasv_slotSafe (hc : c.IsPlain) (hs : BetweenCommands c s g) :
    SlotSafe SlotReady (onPasv ctx c) s g := by
  refine gate_slotSafe hs (fun c' s g hreaps hs => ?_) fun c' s g hreaps hs => ?_
  · exact .of_quiet (hreaps.isPlain hc) rfl hs
  · have hc' := (hreaps.isPlain hc).withMode .none
    simp only [Bool.false_eq_true, if_false]
    refine (stopWorker_slotSafe hs.betweenCommands).bind fun c'' s g ⟨hc'', hs⟩ => ?_
    subst hc''
    have hcommands : BetweenCommands (c'.withMode .none) s g := betweenCommands_of_left rfl hs
    refine (SlotSafe.of_spared (keptBySpared_soundWith _) (fun _ _ h => h.2.2)
      (openListener_keeps ctx fun _ => rfl) hcommands).bind fun result s g ⟨_, hs⟩ => ?_
    split
    next address =>
      refine (BetweenCommands.of_onlyControl (note_onlyControl _) hs).bind fun _ s g hs => ?_
      refine (startWorker_slotSafe hs.2 _ _).bind fun c'' s g ⟨hc'', hs⟩ => ?_
      subst hc''
      exact .of_quiet (hc'.withMode _) rfl hs
    next e =>
      refine (BetweenCommands.of_onlyControl (note_onlyControl _) hs).bind fun _ s g hs => ?_
      exact .of_quiet hc' rfl hs.2

/-- With nothing to abort, everything stays; otherwise the worker is gone. -/
theorem onAbor_slotSafe (hs : Unraced (SoundWith Q) s g) :
    SlotSafe (fun r s g => r.2.transfer = none ∧ (r.1 = c ∧ Unraced (Idle Q) s g ∨
      r.1 = c.withMode .none ∧ Unraced (Left none) s g)) (onAbor c) s g := by
  refine SlotSafe.question (keptBySpared_soundWith Q).toKeptByMoves hs fun s g hs =>
    ⟨.inr hs.2.2, ?_⟩
  intro (busy : Bool) s' hperform
  obtain ⟨hbusy, rfl⟩ := Prod.mk.inj (Option.some.inj hperform)
  have hg : g.ask .isInProgress busy ≠ .raced := Gate.ask_ne_raced hs.1 (by simp)
  cases busy with
  | true =>
    have hkept : Unraced (SoundWith Q) s (g.ask .isInProgress true) := ⟨hg, hs.2⟩
    refine (stopWorker_slotSafe hkept).bind fun c' s g ⟨hc', hs⟩ => ?_
    refine (SlotSafe.of_onlyControl (keptBySpared_left none) (fun _ _ h => h.2.sound)
      (note_onlyControl _) hs).bind
      fun _ s g hs => ?_
    exact ⟨rfl, .inr ⟨hc', hs.2⟩⟩
  | false => exact ⟨rfl, .inl ⟨rfl, hg, hs.2, Slot.inProgress_eq_false.1 hbusy⟩⟩

theorem onQuit_slotSafe (hs : Unraced (SoundWith Q) s g) :
    SlotSafe (fun r s g => r.2.transfer = none ∧ r.1 = c.withMode .none ∧ Unraced (Left none) s g)
      (onQuit c) s g :=
  (stopWorker_slotSafe hs).bind fun _ _ _ hs => ⟨rfl, hs⟩

theorem withData_slotSafe (hc : c.IsPlain) (hs : BetweenCommands c s g) {root : String}
    {command : Client → Step} (h : Opens (fun _ _ => True) root command) :
    SlotSafe SlotReady (withData c command) s g := by
  refine gate_slotSafe hs (fun c' s g hreaps hs => ?_) fun c' s g hreaps hs => ?_
  · simp only [if_true]
    refine (hs.of_onlyControl (note_onlyControl _)).bind fun _ s g hs => ?_
    exact .of_quiet (hreaps.isPlain hc) rfl hs.2
  · have hc' := hreaps.isPlain hc
    simp only [Bool.false_eq_true, if_false]
    split
    next => exact .of_quiet hc' rfl hs.betweenCommands
    next hmode =>
      rcases hs with ⟨hnone, -⟩ | ⟨n, hready⟩
      · exact absurd hnone hmode
      · refine (SlotSafe.of_onlyFileCalls (keptBySpared_ready n) (fun _ _ h => h.sound)
          (h c' hc') hready).mono
          fun r s g ⟨⟨hr, hopens⟩, hready⟩ => ?_
        exact ⟨hr ▸ hc', .inr ⟨hopens.isUntaken, n, hready⟩⟩

theorem slotReady_of_keepsDataMode {r : Client × Outcome} (hr : AnswersKeeping (KeepsDataMode c) r)
    (hs : BetweenCommands c s g) : SlotReady r s g := by
  obtain ⟨⟨hplain, hmode⟩, ho⟩ := hr
  refine .of_quiet hplain ho.transfer ⟨hs.1, fun hne => ?_, hs.2.2⟩
  exact hs.2.1 (hmode ▸ hne)

theorem dispatch_slotSafe (ctx : Context) (hc : c.IsPlain) (hs : BetweenCommands c s g)
    (command : Command) :
    SlotSafe SlotReady (dispatch ctx c command) s g := by
  have hcase := dispatch_cases ctx hc command
  generalize dispatch ctx c command = step at hcase ⊢
  cases hcase with
  | spares _ h =>
    refine (SlotSafe.of_spares (keptBySpared_soundWith _) (fun _ _ h => h.2.2) h hs).mono ?_
    exact fun r s g ⟨hr, hs⟩ => slotReady_of_keepsDataMode hr hs
  | port argument => exact onPort_slotSafe hc hs argument
  | pasv => exact onPasv_slotSafe hc hs
  | abor =>
    refine (onAbor_slotSafe hs).mono fun r s g ⟨ho, hr⟩ => ?_
    rcases hr with ⟨hr, hidle⟩ | ⟨hr, hleft⟩
    · exact .of_quiet (hr ▸ hc) ho (hr ▸ ⟨hidle.1, hidle.2.1⟩)
    · exact .of_quiet (hr ▸ hc.withMode .none) ho (betweenCommands_of_left (hr ▸ rfl) hleft)
  | quit =>
    refine (onQuit_slotSafe hs).mono fun r s g ⟨ho, hr, hleft⟩ => ?_
    exact .of_quiet (hr ▸ hc.withMode .none) ho (betweenCommands_of_left (hr ▸ rfl) hleft)
  | opens _ h => exact withData_slotSafe hc hs h

theorem handle_slotSafe (ctx : Context) (hc : c.IsPlain) (hs : BetweenCommands c s g)
    (command : Command) :
    SlotSafe SlotReady (handle ctx c command) s g := by
  unfold handle
  split
  next => exact .of_quiet hc rfl hs
  next => exact dispatch_slotSafe ctx hc hs command

/-- A transfer that can be installed is attended by its worker, or the race is lost. -/
theorem install_slotSafe {n : Nat} {transfer : Transfer} (huntaken : transfer.stream.isSome)
    (hs : Ready n s g) :
    SlotSafe (fun _ s g => g = .raced ∨ Unraced (SoundWith fun held => held.isSome = true) s g)
      (install transfer) s g := by
  refine SlotSafe.question (keptBySpared_ready n).toKeptByMoves hs fun s g hs => ⟨.inr ⟨n, hs⟩, ?_⟩
  rintro _ _ ⟨⟩
  rcases hs.stands with ⟨rfl, hattends, huncancelled, hnone⟩ | ⟨rfl, hretired⟩
  · refine .inr ⟨Gate.noConfusion, hs.held ▸ rfl, ?_⟩
    exact .attended n hs.held (hattends.install huncancelled hnone huntaken) huncancelled
  · exact .inl rfl

theorem deliver_slotSafe {o : Outcome} (command : Command) (hs : SlotReady (c, o) s g) :
    SlotSafe (fun _ s g => g = .raced ∨ BetweenCommands c s g) (deliver c command o) s g := by
  have hsend : OnlyControl (fun _ _ => True) (fun _ => True) (sendOutcome c o) :=
    sendOutcome_onlyControl c o
  rcases hs.rests with ⟨ho, hs⟩ | ⟨huntaken, n, hready⟩
  · exact (hs.of_onlyControl (deliver_onlyControl command ho)).mono fun _ s g hs => .inr hs.2
  · refine (SlotSafe.of_onlyControl (keptBySpared_ready n) (fun _ _ h => h.sound) hsend hready).bind
      fun onward s g ⟨_, hready⟩ => ?_
    have hcommands : BetweenCommands c s g := Free.betweenCommands (.inr ⟨n, hready⟩)
    have hconclude {s : Scene} {g : Gate} (hs : BetweenCommands c s g) :
        SlotSafe (fun _ s g => g = .raced ∨ BetweenCommands c s g)
          (conclude c command o.status) s g :=
      (hs.of_onlyControl (conclude_onlyControl c command o.status)).mono fun _ s g hs => .inr hs.2
    cases onward with
    | stop => exact .inr hcommands
    | goOn =>
      dsimp only at huntaken
      cases ho : o.transfer with
      | none => exact hconclude hcommands
      | some transfer =>
        refine (install_slotSafe (huntaken transfer ho) hready).bind fun _ s g hs => ?_
        rcases hs with rfl | hs
        · exact slotSafe_of_raced (fun _ _ => .inl rfl) _ s
        · exact hconclude ⟨hs.1, fun _ => hs.2.1, hs.2.2⟩

theorem onCommand_slotSafe (ctx : Context) (hc : c.IsPlain) (hs : BetweenCommands c s g)
    (command : Command) :
    SlotSafe (fun r s g => r.1.IsPlain ∧ (g = .raced ∨ BetweenCommands r.1 s g))
    (onCommand ctx c command)
      s g := by
  rw [onCommand_eq]
  have hperform : SlotSafe SlotReady (perform ctx c command) s g :=
    (hs.of_onlyControl (note_onlyControl _)).bind fun _ s g hs =>
      handle_slotSafe ctx hc hs.2 command
  refine hperform.bind fun r s g hr => ?_
  exact (deliver_slotSafe command hr).bind fun _ s g hs => ⟨hr.plain, hs⟩

theorem onIncoming_slotSafe (ctx : Context) (hc : c.IsPlain) (hs : BetweenCommands c s g)
    (line : Line.Incoming) :
    SlotSafe (fun r s g => r.1.IsPlain ∧ (g = .raced ∨ BetweenCommands r.1 s g))
    (onIncoming ctx c line)
      s g := by
  have hrefuse : ∀ (record : Record) (reply : Reply), SlotSafe
      (fun r s g => r.1.IsPlain ∧ (g = .raced ∨ BetweenCommands r.1 s g))
      (do note record; return (c, ← sendOrStop reply)) s g := fun record reply => by
    refine (hs.of_onlyControl (note_onlyControl record)).bind fun _ s g hs => ?_
    refine (hs.2.of_onlyControl (sendOrStop_onlyControl reply)).bind fun _ s g hs => ?_
    exact ⟨hc, .inr hs.2⟩
  unfold onIncoming
  split
  next => exact (hs.of_onlyControl (note_onlyControl _)).bind fun _ s g hs => ⟨hc, .inr hs.2⟩
  next => exact hrefuse _ _
  next =>
    split
    next command _ => exact onCommand_slotSafe ctx hc hs command
    next => exact hrefuse _ _

theorem answer_slotSafe (ctx : Context) (hc : c.IsPlain) (hs : g = .raced ∨ BetweenCommands c s g)
    (lines : List Line.Incoming) :
    SlotSafe (fun c s g => g = .raced ∨ BetweenCommands c s g) (answer ctx c lines) s g := by
  induction lines generalizing c s g with
  | nil => exact hs
  | cons line rest ih =>
    rcases hs with rfl | hs
    · exact slotSafe_of_raced (fun _ _ => .inl rfl) _ s
    · refine (onIncoming_slotSafe ctx hc hs line).bind fun r s g ⟨hc, hs⟩ => ?_
      dsimp only
      split
      next => exact ih hc hs
      next => exact hs

theorem close_slotSafe (hs : Unraced (SoundWith Q) s g) :
    SlotSafe (fun _ s g => Unraced (Left none) s g) (close c) s g := by
  refine (stopWorker_slotSafe hs).bind fun c' s g ⟨_, hs⟩ => ?_
  have hrest : (do
      note (.closed c' (← totals))
      lockControl
      shutControl
      unlockControl
      note (.disconnected c'.address)
      return c' : Dialogue Client).Keeps (fun _ _ => True) (fun q => q.sparesSlot = true)
        fun _ => True := by
    refine Keeps.question rfl fun _ _ => ?_
    refine Keeps.question rfl fun _ _ => ?_
    refine Keeps.question rfl fun _ _ => ?_
    refine Keeps.question rfl fun _ _ => ?_
    refine Keeps.question rfl fun _ _ => ?_
    exact Keeps.question rfl fun _ _ => trivial
  exact (SlotSafe.of_spared (keptBySpared_left none) (fun _ _ h => h.2.sound) hrest hs).mono
    fun _ _ _ hs => hs.2

theorem serve_slotSafe (ctx : Context) (address : Socket) (lines : List Line.Incoming)
    (hs : s.Left none) :
    SlotSafe (fun _ s g => g = .raced ∨ Unraced (Left none) s g)
    (serve ctx address lines) s .shut := by
  have hshut : Unraced (Left none) s .shut := ⟨by decide, hs⟩
  refine (SlotSafe.of_onlyControl (keptBySpared_left none) (fun _ _ h => h.2.sound)
    (send_onlyControl _) hshut).bind
    fun result s g ⟨_, hs⟩ => ?_
  split
  next => exact .inr hs
  next =>
    have hcommands : BetweenCommands (.connect address) s g := betweenCommands_of_left rfl hs
    refine (answer_slotSafe ctx (Client.connect_isPlain address) (.inr hcommands) lines).bind
      fun c s g hs => ?_
    rcases hs with rfl | hs
    · exact slotSafe_of_raced (fun _ _ => .inl rfl) _ s
    · exact (close_slotSafe hs).bind fun _ _ _ hs => .inr hs

end Session

end FtpServer
