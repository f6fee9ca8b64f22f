import FtpServer.Proofs.Channel

/-!
# One transfer for each data connection

At every boundary between commands, the data mode, the worker that the session holds and the slot
agree.  Each `PORT` or `PASV` that succeeds serves one transfer at most; after that, whatever opens
a transfer is told to ask for a connection first.
-/

namespace FtpServer

open Program Dialogue Scene

/-- The data mode tells whether the session holds a worker, and the slot has no transfer, worker or
cancellation that the session does not know of. -/
structure Scene.Coherent (c : Client) (s : Scene) : Prop where
  mode : c.dataMode = .none ↔ s.held = none
  transfer : s.shared.slot.inProgress = true →
    s.held ≠ none ∧ s.shared.slot.armed = true ∧ s.shared.slot.cancelled = false
  armed : s.shared.slot.armed = true → s.held ≠ none
  cancelled : s.shared.slot.cancelled = true → s.held = none

theorem Scene.AtBoundary.coherent {c : Client} {s : Scene} (h : AtBoundary c s) : Coherent c s where
  mode := h.mode
  transfer hbusy := by
    have hopen : s.channel ≠ .closed := by simp [h.inProgress_iff.1 hbusy]
    obtain ⟨n, hheld, hattends, hmeets⟩ := h.attended hopen
    exact ⟨by simp [hheld], hattends.armed, hmeets⟩
  armed harmed := by
    have hopen : s.channel ≠ .closed := by simp [channel_eq_closed, harmed]
    obtain ⟨n, hheld, -⟩ := h.attended hopen
    simp [hheld]
  cancelled hcancelled := by
    cases hheld : s.held with
    | none => rfl
    | some n =>
      have huncancelled := h.uncancelled (by simp [hheld])
      cases hcancelled.symm.trans huncancelled

namespace Session

variable {ctx : Context} {a : Client × Scene} {c c' : Client} {s s' s₁ s₂ : Scene}
variable {h h' before between after : List Exchange} {e : Exchange} {onward : Onward}

structure Turns (c : Client) (ch : Channel) (e : Exchange) (onward : Onward) (c' : Client)
    (s' : Scene) : Prop where
  atBoundary : AtBoundary c' s'
  opens : s'.channel = .ready → e.Offers ∨ ch = .ready ∧ (onward = .goOn → ¬ e.Begins)
  fills : s'.channel = .busy → ch = .busy ∨ e.Begins
  begins : e.Begins → c.isLoggedIn = true ∧ ch = .ready
  refuses : e.command.opensTransfer = true → c.isLoggedIn = true → ch = .closed →
    e.code? = some 425
  ignores : e.command.opensTransfer = true → c.isLoggedIn = true → ch = .busy →
    e.outcome.reply = none
  aborts : e.command = .abor → s'.channel ≠ .busy

theorem isConsistent_of_perform {o : Outcome} {command : Command} (hc : c.IsPlain)
    (hrun : Steps (perform ctx c command, s) (.done (c', o), s')) : o.IsConsistent := by
  have hkeeps := hrun.keeps (I := fun _ => True) (perform_precedesReply ctx hc command) trivial
    (fun _ _ _ _ _ _ _ => ⟨trivial, trivial⟩) (fun _ _ _ _ _ _ => trivial) fun _ _ _ => trivial
  exact hkeeps.1

theorem turns_of_exchange (hs : AtBoundary c s) (hc : c.IsPlain)
    (hperform : AtomicSteps (perform ctx c e.command, s.judging e.verdict)
      (.done (c', e.outcome), s₁))
    (hdeliver : AtomicSteps (deliver c' e.command e.outcome, s₁) (.done onward, s₂)) :
    Turns c s.channel e onward c' s₂ := by
  have hjudged : AtBoundary c (s.judging e.verdict) := hs.same ⟨rfl, rfl, rfl⟩
  have hmeets : (perform ctx c e.command).Meets atomic
      (HandlesAs e.verdict c s.channel e.command) (s.judging e.verdict) :=
    perform_atomic hjudged hc e.command
  obtain ⟨t, ht, hhandles⟩ := hperform.result hmeets
  have hhandles : Handles c s.channel e c' t := hhandles
  have hbegins : e.Begins ↔ e.outcome.transfer.isSome = true :=
    (isConsistent_of_perform hc hperform.steps).begins
  have hdelivers : (deliver c' e.command e.outcome).Meets atomic
      (fun onward u => Delivers c' e.outcome s₁.channel onward u) s₁ := by
    refine deliver_atomic (hhandles.atBoundary.same ht) e.command fun hsome => ?_
    obtain ⟨-, -, hready, huntaken⟩ := hhandles.begins hsome
    exact ⟨ht.channel.trans hready, huntaken⟩
  obtain ⟨u, hu, hdelivered⟩ := hdeliver.result hdelivers
  have hsettles : e.outcome.transfer = none → t.channel.Settles s₂.channel := fun hnone => by
    have hsettles := hdelivered.settles hnone
    rwa [ht.channel, ← hu.channel] at hsettles
  refine ⟨hdelivered.atBoundary.same hu, fun hready => ?_, fun hbusy => ?_, fun h => ?_,
    hhandles.refuses, hhandles.ignores, fun habor hbusy => ?_⟩
  · cases htransfer : e.outcome.transfer with
    | none =>
      have hnot : ¬ e.Begins := by simp [hbegins, htransfer]
      rcases hsettles htransfer with hsame | ⟨-, hclosed⟩
      · rcases hhandles.opens (hsame.symm.trans hready) with hready | hoffers
        · exact .inr ⟨hready, fun _ => hnot⟩
        · exact .inl hoffers
      · cases hready.symm.trans hclosed
    | some transfer =>
      have hsome : e.outcome.transfer.isSome = true := by simp [htransfer]
      rcases hdelivered.begins hsome with hbusy | ⟨-, hstop⟩
      · cases hready.symm.trans (hu.channel.trans hbusy)
      · refine .inr ⟨(hhandles.begins hsome).2.1, fun hgoes => ?_⟩
        cases hstop.symm.trans hgoes
  · by_cases hb : e.Begins
    · exact .inr hb
    · have hnone : e.outcome.transfer = none := by simpa [hbegins] using hb
      rcases hsettles hnone with hsame | ⟨-, hclosed⟩
      · exact .inl (hhandles.fills (hsame.symm.trans hbusy))
      · cases hbusy.symm.trans hclosed
  · obtain ⟨hin, hready, -⟩ := hhandles.begins (hbegins.1 h)
    exact ⟨hin, hready⟩
  · obtain ⟨hnot, hnone⟩ := hhandles.aborts habor
    rcases hsettles hnone with hsame | ⟨hbusy', -⟩
    · exact hnot (hsame.symm.trans hbusy)
    · exact hnot hbusy'

theorem Turns.stays_closed (hturn : Turns c s.channel e onward c' s')
    (hclosed : s.channel = .closed)
    (hno : ¬ e.Offers) : s'.channel = .closed := by
  cases hch : s'.channel with
  | closed => rfl
  | ready =>
    rcases hturn.opens hch with hoffers | ⟨hready, -⟩
    · exact absurd hoffers hno
    · cases hclosed.symm.trans hready
  | busy =>
    rcases hturn.fills hch with hbusy | hbegins
    · cases hclosed.symm.trans hbusy
    · cases hclosed.symm.trans (hturn.begins hbegins).2

theorem Turns.stays_unready (hturn : Turns c s.channel e onward c' s') (hnot : s.channel ≠ .ready)
    (hno : ¬ e.Offers) : s'.channel ≠ .ready := by
  intro hready
  rcases hturn.opens hready with hoffers | ⟨hready, -⟩
  · exact hno hoffers
  · exact hnot hready

/-- The last offer has not been used: since then no transfer was announced. -/
def Pending (h : List Exchange) : Prop :=
  ∃ before e after, h = before ++ e :: after ∧ e.Offers ∧ ∀ x ∈ after, ¬ x.Begins

theorem pending_snoc_of_offers (h : List Exchange) (he : e.Offers) : Pending (h ++ [e]) :=
  ⟨h, e, [], rfl, he, by simp⟩

theorem Pending.snoc (hpending : Pending h) (he : ¬ e.Begins) : Pending (h ++ [e]) := by
  obtain ⟨before, offer, after, rfl, hoffers, hafter⟩ := hpending
  refine ⟨before, offer, after ++ [e], by simp, hoffers, fun x hx => ?_⟩
  rcases List.mem_append.1 hx with hold | hnew
  · exact hafter x hold
  · exact List.mem_singleton.1 hnew ▸ he

/-- An offer that is still unused after a transfer was announced was made after it. -/
theorem Pending.offer_after (hpending : Pending (before ++ e :: between)) (he : e.Begins) :
    ∃ x ∈ between, x.Offers := by
  obtain ⟨front, offer, back, heq, hoffers, hback⟩ := hpending
  rcases List.append_eq_append_iff.1 heq with ⟨middle, -, hmiddle⟩ | ⟨middle, -, hmiddle⟩
  · cases middle with
    | nil =>
      obtain ⟨rfl, -⟩ := List.cons.inj hmiddle
      exact absurd he hoffers.not_begins
    | cons x rest =>
      obtain ⟨rfl, rfl⟩ := List.cons.inj hmiddle
      exact ⟨offer, by simp, hoffers⟩
  · cases middle with
    | nil =>
      obtain ⟨rfl, -⟩ := List.cons.inj hmiddle
      exact absurd he hoffers.not_begins
    | cons x rest =>
      obtain ⟨rfl, rfl⟩ := List.cons.inj hmiddle
      exact absurd he (hback e (by simp))

theorem isLoggedIn_of_perform {o : Outcome} {command : Command} {verdict : String → String → Bool}
    (hc : c.IsPlain) (hrun : Steps (perform ctx c command, s.judging verdict) (.done (c', o), s'))
    (hin : c.isLoggedIn = true) : c'.isLoggedIn = true := by
  simp only [Client.isLoggedIn, decide_eq_true_eq] at hin ⊢
  exact ((loginStep_of_perform hc hrun).stays hin).1

structure Accounts (h : List Exchange) (c : Client) (s : Scene) (onward : Onward) : Prop where
  atBoundary : AtBoundary c s
  isPlain : c.IsPlain
  pending : onward = .goOn → s.channel = .ready → Pending h
  covered : ∀ before e after, h = before ++ e :: after → e.Begins → Pending before
  loggedIn : (∃ e ∈ h, e.Begins) → c.isLoggedIn = true
  aborted : ∀ before e, h = before ++ [e] → e.command = .abor → s.channel ≠ .busy

theorem accounts_start (hs : AtBoundary c s) (hc : c.IsPlain) (hclosed : s.channel = .closed) :
    Accounts [] c s .goOn where
  atBoundary := hs
  isPlain := hc
  pending _ hready := by
    cases hclosed.symm.trans hready
  covered before e after hnil := by simp at hnil
  loggedIn hbegins := by simp at hbegins
  aborted before e hnil := by simp at hnil

theorem Accounts.elapse (hbefore : Accounts h c s onward) (hmoves : WorkersMove s s') :
    Accounts h c s' onward := by
  obtain ⟨hboundary, hsettles⟩ := hmoves.atBoundary hbefore.atBoundary
  refine ⟨hboundary, hbefore.isPlain, fun hgoes hready => ?_, hbefore.covered, hbefore.loggedIn,
    fun before e hh habor hbusy => ?_⟩
  · rcases hsettles with hsame | ⟨-, hclosed⟩
    · exact hbefore.pending hgoes (hsame.symm.trans hready)
    · cases hready.symm.trans hclosed
  · rcases hsettles with hsame | ⟨-, hclosed⟩
    · exact hbefore.aborted before e hh habor (hsame.symm.trans hbusy)
    · cases hbusy.symm.trans hclosed

theorem Accounts.next (hbefore : Accounts h c s .goOn)
    (hperform : AtomicSteps (perform ctx c e.command, s.judging e.verdict)
      (.done (c', e.outcome), s₁))
    (hdeliver : AtomicSteps (deliver c' e.command e.outcome, s₁) (.done onward, s₂)) :
    Accounts (h ++ [e]) c' s₂ onward := by
  have hc := hbefore.isPlain
  have hturn := turns_of_exchange hbefore.atBoundary hc hperform hdeliver
  have hstays := isLoggedIn_of_perform hc hperform.steps
  refine ⟨hturn.atBoundary, isPlain_of_perform hc hperform.steps, fun hgoes hready => ?_,
    fun before x after hh hbegins => ?_, fun hbegins => ?_, fun before x hh habor => ?_⟩
  · rcases hturn.opens hready with hoffers | ⟨hready, hnot⟩
    · exact pending_snoc_of_offers h hoffers
    · exact (hbefore.pending rfl hready).snoc (hnot hgoes)
  · rcases List.eq_nil_or_concat after with rfl | ⟨init, last, rfl⟩
    · obtain ⟨rfl, hlast⟩ := List.append_inj' hh rfl
      obtain rfl := List.singleton_inj.1 hlast
      exact hbefore.pending rfl (hturn.begins hbegins).2
    · rw [List.concat_eq_append, ← List.cons_append, ← List.append_assoc] at hh
      obtain ⟨hinit, -⟩ := List.append_inj' hh rfl
      exact hbefore.covered before x init hinit hbegins
  · obtain ⟨x, hx, hbegins⟩ := hbegins
    rcases List.mem_append.1 hx with hold | hnew
    · exact hstays (hbefore.loggedIn ⟨x, hold, hbegins⟩)
    · obtain rfl := List.mem_singleton.1 hnew
      exact hstays (hturn.begins hbegins).1
  · obtain ⟨-, hlast⟩ := List.append_inj' hh rfl
    obtain rfl := List.singleton_inj.1 hlast
    exact hturn.aborts habor

theorem AtomicHistory.accounts {b : Client × Scene} (hrun : AtomicHistory ctx a h b onward)
    (ha : Accounts [] a.1 a.2 .goOn) : Accounts h b.1 b.2 onward := by
  induction hrun with
  | start => exact ha
  | elapse _ hmoves ih => exact ih.elapse hmoves
  | next _ hperform hdeliver ih => exact ih.next hperform hdeliver

/-- All offers have been used, and no other is made: what opens a transfer is told to ask for a
connection, or is ignored while the last transfer goes on. -/
structure Spent (ch : Channel) (h : List Exchange) (c : Client) (s : Scene) : Prop where
  atBoundary : AtBoundary c s
  isPlain : c.IsPlain
  loggedIn : c.isLoggedIn = true
  unready : s.channel ≠ .ready
  closed : ch = .closed → s.channel = .closed
  refused : ∀ x ∈ h, x.command.opensTransfer = true →
    x.code? = some 425 ∨ x.outcome.reply = none ∧ ch ≠ .closed

theorem Spent.elapse {ch : Channel} (hspent : Spent ch h c s) (hmoves : WorkersMove s s') :
    Spent ch h c s' := by
  obtain ⟨hboundary, hsettles⟩ := hmoves.atBoundary hspent.atBoundary
  refine ⟨hboundary, hspent.isPlain, hspent.loggedIn, fun hready => ?_, fun hclosed => ?_,
    hspent.refused⟩
  · rcases hsettles with hsame | ⟨-, hclosed⟩
    · exact hspent.unready (hsame.symm.trans hready)
    · cases hready.symm.trans hclosed
  · rcases hsettles with hsame | ⟨-, hclosed'⟩
    · exact hsame.trans (hspent.closed hclosed)
    · exact hclosed'

theorem Spent.next {ch : Channel} (hspent : Spent ch h c s)
    (hperform : AtomicSteps (perform ctx c e.command, s.judging e.verdict)
      (.done (c', e.outcome), s₁))
    (hdeliver : AtomicSteps (deliver c' e.command e.outcome, s₁) (.done onward, s₂))
    (hno : ¬ e.Offers) :
    Spent ch (h ++ [e]) c' s₂ := by
  have hc := hspent.isPlain
  have hturn := turns_of_exchange hspent.atBoundary hc hperform hdeliver
  refine ⟨hturn.atBoundary, isPlain_of_perform hc hperform.steps,
    isLoggedIn_of_perform hc hperform.steps hspent.loggedIn,
    hturn.stays_unready hspent.unready hno,
    fun hclosed => hturn.stays_closed (hspent.closed hclosed) hno, fun x hx hopens => ?_⟩
  rcases List.mem_append.1 hx with hold | hnew
  · exact hspent.refused x hold hopens
  · obtain rfl := List.mem_singleton.1 hnew
    cases hch : s.channel with
    | closed => exact .inl (hturn.refuses hopens hspent.loggedIn hch)
    | ready => exact absurd hch hspent.unready
    | busy =>
      refine .inr ⟨hturn.ignores hopens hspent.loggedIn hch, fun hclosed => ?_⟩
      cases hch.symm.trans (hspent.closed hclosed)

theorem AtomicHistory.spent {b : Client × Scene} (hrun : AtomicHistory ctx a h b onward)
    (ha : Spent a.2.channel [] a.1 a.2) (hno : ∀ x ∈ h, ¬ x.Offers) :
    Spent a.2.channel h b.1 b.2 := by
  induction hrun with
  | start => exact ha
  | elapse _ hmoves ih => exact (ih hno).elapse hmoves
  | next _ hperform hdeliver ih =>
    have hbefore := ih fun x hx => hno x (List.mem_append_left _ hx)
    exact hbefore.next hperform hdeliver (hno _ (by simp))

/-- Between any two commands data mode, worker and slot agree.  A transfer is announced only on an
offer of `PORT` or `PASV` that no other transfer has used, so that there is such an offer between any
two transfers.  Once the last offer has been used, what opens a transfer is ignored as long as that
transfer goes on, and told to ask for a connection as soon as it has ended or was aborted. -/
theorem one_transfer_per_data_connection {address : Socket} {s₀ : Scene}
    (hs₀ : s₀.shared.slot = .fresh ∧ s₀.workers = [] ∧ s₀.held = none)
    (hrun : AtomicHistory ctx (.connect address, s₀) h (c, s) onward) :
    Coherent c s ∧
    (∀ before e after, h = before ++ e :: after → e.Begins → Pending before) ∧
    (∀ before e between e' after, h = before ++ e :: between ++ e' :: after → e.Begins →
      e'.Begins → ∃ x ∈ between, x.Offers) ∧
    (∀ before e after, h = before ++ e :: after → e.Begins → (∀ x ∈ after, ¬ x.Offers) →
      onward = .goOn → ∀ h' b onward', AtomicHistory ctx (c, s) h' b onward' →
        (∀ x ∈ h', ¬ x.Offers) → ∀ x ∈ h', x.command.opensTransfer = true →
          x.code? = some 425 ∨ x.outcome.reply = none ∧ s.shared.slot.inProgress = true) ∧
    (∀ before e, h = before ++ [e] → e.command = .abor → s.shared.slot.inProgress = false) := by
  have hleft := left_of_fresh hs₀
  have hstart : Accounts [] (.connect address) s₀ .goOn :=
    accounts_start (atBoundary_of_left hleft rfl) (Client.connect_isPlain address) hleft.2.channel
  have haccounts : Accounts h c s onward := hrun.accounts hstart
  have hboundary := haccounts.atBoundary
  refine ⟨hboundary.coherent, haccounts.covered, fun before e between e' after hh he he' => ?_,
    fun before e after hh he hafter hgoes h' b onward' hrest hno x hx hopens => ?_,
    fun before e hh habor => ?_⟩
  · -- What was pending at the second transfer was offered after the first had used its offer.
    have hpending := haccounts.covered (before ++ e :: between) e' after (by simp [hh]) he'
    exact hpending.offer_after he
  · have hunready : s.channel ≠ .ready := fun hready => by
      have hpending := haccounts.pending hgoes hready
      rw [hh] at hpending
      obtain ⟨y, hy, hoffers⟩ := hpending.offer_after he
      exact hafter y hy hoffers
    have hspent : Spent s.channel [] c s := by
      refine ⟨hboundary, haccounts.isPlain, haccounts.loggedIn ⟨e, by simp [hh], he⟩, hunready, id,
        ?_⟩
      simp
    rcases (hrest.spent hspent hno).refused x hx hopens with hrefused | ⟨hignored, hopen⟩
    · exact .inl hrefused
    · refine .inr ⟨hignored, hboundary.inProgress_iff.2 ?_⟩
      cases hch : s.channel with
      | closed => exact absurd hch hopen
      | ready => exact absurd hch hunready
      | busy => rfl
  · by_cases hbusy : s.shared.slot.inProgress = true
    · exact absurd (hboundary.inProgress_iff.1 hbusy) (haccounts.aborted before e hh habor)
    · simpa using hbusy

def failingWorker (number : Nat) : List (Nat × Worker.Move) :=
  [.look, .connectFails .brokenPipe, .lock, .release, .report, .unlock].map fun m => (number, m)

/-- A client that lists twice on one connection, and then on another. -/
def listingClient : List (Command × List (Nat × Worker.Move)) :=
  [(.user "anonymous", []), (.pass "guest", []), (.pasv, []), (.list "", failingWorker 0),
    (.list "", []), (.pasv, []), (.list "", [])]

/-- The second listing is refused, and an offer stands between the two that are announced. -/
theorem one_transfer_per_data_connection_listing_twice :
    ∃ h c s, AtomicHistory (usualContext "/")
        (.connect loopback, { Scene.start Tree.bare {} with lister := .fixed [] }) h (c, s) .goOn ∧
      h.map Exchange.code? =
        [some 331, some 230, some 227, some 150, some 425, some 227, some 150] ∧
      Coherent c s ∧ s.shared.slot.inProgress = true ∧
      ∀ before e between e' after, h = before ++ e :: between ++ e' :: after → e.Begins →
        e'.Begins → ∃ x ∈ between, x.Offers := by
  have hscript : (scripted (usualContext "/") (fun _ _ => false) listingClient
      (.connect loopback, { Scene.start Tree.bare {} with lister := .fixed [] })).any (fun r =>
        r.1.map Exchange.code? ==
            [some 331, some 230, some 227, some 150, some 425, some 227, some 150] &&
          r.2.2.shared.slot.inProgress) = true := by
    decide +kernel
  obtain ⟨⟨h, c, s⟩, hsome, htest⟩ := (Option.any_eq_true ..).1 hscript
  simp only [Bool.and_eq_true, beq_iff_eq] at htest
  obtain ⟨hcodes, hbusy⟩ := htest
  have hrun := AtomicHistory.start.scripted hsome
  have hall := one_transfer_per_data_connection ⟨rfl, rfl, rfl⟩ hrun
  exact ⟨h, c, s, hrun, hcodes, hall.1, hbusy, hall.2.2.1⟩

end Session

end FtpServer
