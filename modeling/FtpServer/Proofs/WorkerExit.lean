import Mathlib.Data.List.Induction
import FtpServer.Proofs.WorkerRuns

/-!
# How a worker ends

A worker that has ended has left the slot once.  It has said what the transfer calls for, or nothing
if the transfer was cancelled before; and it has added to the totals just what it copied, if the
copy was complete.
-/

namespace FtpServer

open Text

namespace Worker

variable {w w' w₀ : Worker} {m : Move} {s s' s₀ : Shared} {l : List Step} {b : Book}
variable {cancelled cancelled' : Bool} {reply : Option Reply} {phase : Phase} {job job' : Job}

/-- The report that the book of a worker calls for. -/
inductive Concludes (cancelled : Bool) : Book → Option Reply → Prop
  | gaveUp {connected : Bool} {taken put : Nat} (hcancelled : cancelled = true)
      (hidle : connected = false → taken = 0 ∧ put = 0) :
      Concludes cancelled { Book.blank with connected, taken, put } none
  | unconnected : Concludes cancelled .blank (some cannotConnect)
  | copied (n : Nat) : Concludes cancelled
      { Book.blank with connected := true, closed := true, taken := n, put := n, recorded := [n] }
      (some complete)
  | broken (taken put : Nat) : Concludes cancelled
      { Book.blank with connected := true, broken := true, taken, put } (some failed)

theorem Concludes.mono (h : Concludes cancelled b reply)
    (hcancelled : cancelled = true → cancelled' = true) : Concludes cancelled' b reply := by
  cases h with
  | gaveUp hgone hidle => exact .gaveUp (hcancelled hgone) hidle
  | unconnected => exact .unconnected
  | copied n => exact .copied n
  | broken taken put => exact .broken taken put

def Book.Settled (b : Book) : Prop :=
  ∃ cancelled b₀ reply, Concludes cancelled b₀ reply ∧ b = { b₀ with
    departures := [cancelled]
    replies := if cancelled then [] else reply.toList }

def BookMatches (cancelled : Bool) (b : Book) : Phase → Prop
  | .waiting _ | .connecting _ _ _ => b = .blank
  | .checking job | .reading job | .closing job =>
    b = { Book.blank with connected := true, taken := job.total, put := job.total }
  | .writing job size left => ∃ put, put + left.length = job.total + size ∧
    b = { Book.blank with connected := true, taken := job.total + size, put }
  | .recording job =>
    b = { Book.blank with connected := true, closed := true, taken := job.total, put := job.total }
  | .retiring reply | .releasing reply => Concludes cancelled b reply
  | .leaving => Concludes cancelled b none
  | .reporting reply => ∃ b₀, Concludes false b₀ (some reply) ∧
    b = { b₀ with departures := [false] }
  | .unlocking | .ended => b.Settled

theorem BookMatches.of_enter {s₁ : Shared} (h : some (w.enter phase, s₁) = some (w', s'))
    (hmatches : BookMatches cancelled b phase) : BookMatches cancelled b w'.phase := by
  obtain ⟨rfl, -⟩ := Prod.mk.inj (Option.some.inj h)
  exact hmatches

theorem BookMatches.waiting {waiter : Slot.Waiter} (h : BookMatches s.slot.cancelled b w.phase)
    (hphase : w.phase = .waiting waiter) (hmove : w.move? m s = some (w', s')) :
    BookMatches s.slot.cancelled (b.add w s m) w'.phase := by
  obtain rfl : b = .blank := by simpa [hphase, BookMatches] using h
  cases m with
  | look =>
    cases advance_of_look hphase hmove with
    | looksInVain _ _ _ hphase' | takes _ _ _ hphase' => simp [hphase', BookMatches, Book.add]
    | givesUp _ _ hlook hphase' =>
      rw [hphase']
      exact .gaveUp (Slot.Waiter.poll_cancelled hlook) fun _ => ⟨rfl, rfl⟩
    | serves | leaves | windsUp => simp_all [Phase.stage]
  | _ => simp [move?, hphase] at hmove

theorem BookMatches.connecting {direction : Direction} {stream : Stream Source Sink}
    {deadline : Nat}
    (h : BookMatches s.slot.cancelled b w.phase)
    (hphase : w.phase = .connecting direction stream deadline)
    (hmove : w.move? m s = some (w', s')) :
    BookMatches s.slot.cancelled (b.add w s m) w'.phase := by
  obtain rfl : b = .blank := by simpa [hphase, BookMatches] using h
  cases m with
  | connect peer incoming =>
    simp only [move?, hphase] at hmove
    split at hmove
    next hadmits => exact .of_enter hmove (by simp [BookMatches, Book.add, Book.blank, hadmits])
    next hadmits =>
      refine .of_enter hmove ?_
      simpa [BookMatches, Book.add, Book.blank, hadmits] using Concludes.unconnected
  | connectFails cause =>
    simp only [move?, hphase] at hmove
    exact .of_enter hmove .unconnected
  | timeOut =>
    simp only [move?, hphase] at hmove
    split at hmove
    next => exact .of_enter hmove .unconnected
    next => cases hmove
  | cancel =>
    simp only [move?, hphase] at hmove
    split at hmove
    next hcancelled => exact .of_enter hmove (.gaveUp hcancelled fun _ => ⟨rfl, rfl⟩)
    next => cases hmove
  | _ => simp [move?, hphase] at hmove

theorem length_of_takeBlock {t : Tree} {size count : Nat} {block : Bytes}
    (h : takeBlock t size count job = some (block, job')) :
    block.length = count ∧ job'.total = job.total := by
  unfold takeBlock at h
  split at h
  next => cases h
  next =>
    split at h
    next =>
      split at h
      next hcount =>
        obtain ⟨rfl, rfl⟩ := Prod.mk.inj (Option.some.inj h)
        exact ⟨List.length_take_of_le hcount.1, rfl⟩
      next => cases h
    next =>
      split at h
      next =>
        split at h
        next hcount =>
          obtain ⟨rfl, rfl⟩ := Prod.mk.inj (Option.some.inj h)
          exact ⟨hcount.1, rfl⟩
        next => cases h
      next => cases h

theorem BookMatches.copying (h : BookMatches s.slot.cancelled b w.phase)
    (hjob : w.phase.job? = some job) (hmove : w.move? m s = some (w', s')) :
    BookMatches s.slot.cancelled (b.add w s m) w'.phase := by
  cases hphase : w.phase with
  | checking job =>
    obtain rfl : b = _ := by simpa only [hphase, BookMatches] using h
    cases m with
    | check =>
      simp only [move?, hphase] at hmove
      split at hmove
      next => cases hmove
      next => exact .of_enter hmove rfl
    | cancel =>
      simp only [move?, hphase] at hmove
      split at hmove
      next hcancelled => exact .of_enter hmove (.gaveUp hcancelled (by simp))
      next => cases hmove
    | _ => simp [move?, hphase] at hmove
  | reading job =>
    obtain rfl : b = _ := by simpa only [hphase, BookMatches] using h
    cases m with
    | read count =>
      simp only [move?, hphase] at hmove
      split at hmove
      next htake =>
        obtain ⟨rfl, htotal⟩ := length_of_takeBlock htake
        exact .of_enter hmove (by simp [BookMatches, Book.add, htotal])
      next htake =>
        obtain ⟨rfl, htotal⟩ := length_of_takeBlock htake
        exact .of_enter hmove ⟨job.total, by simp [htotal], by simp [Book.add, htotal]⟩
      next => cases hmove
    | readFails cause =>
      simp only [move?, hphase] at hmove
      exact .of_enter hmove (.broken _ _)
    | cancel =>
      simp only [move?, hphase] at hmove
      split at hmove
      next hcancelled => exact .of_enter hmove (.gaveUp hcancelled (by simp))
      next => cases hmove
    | _ => simp [move?, hphase] at hmove
  | writing job size left =>
    obtain ⟨put, hput, rfl⟩ : ∃ put, put + left.length = job.total + size ∧ b = _ := by
      simpa only [hphase, BookMatches] using h
    cases m with
    | write count =>
      simp only [move?, hphase] at hmove
      split at hmove
      next hcount =>
        split at hmove
        next job' tree hput' =>
          have htotal := (putBytes_eq_some hput').2.1
          refine .of_enter hmove ?_
          split
          next hall =>
            subst hall
            simp [BookMatches, Book.add, puts, hphase, htotal, hput]
          next hpart =>
            refine ⟨put + count, ?_, ?_⟩
            · simp [htotal]
              omega
            · simp [Book.add, puts, hphase, htotal, hcount.2]
        next => cases hmove
      next => cases hmove
    | writeFails cause =>
      simp only [move?, hphase] at hmove
      exact .of_enter hmove (.broken _ _)
    | cancel =>
      simp only [move?, hphase] at hmove
      split at hmove
      next hcancelled => exact .of_enter hmove (.gaveUp hcancelled (by simp))
      next => cases hmove
    | _ => simp [move?, hphase] at hmove
  | closing job =>
    obtain rfl : b = _ := by simpa only [hphase, BookMatches] using h
    cases m with
    | close =>
      simp only [move?, hphase] at hmove
      exact .of_enter hmove rfl
    | closeFails cause =>
      simp only [move?, hphase] at hmove
      exact .of_enter hmove (.broken _ _)
    | _ => simp [move?, hphase] at hmove
  | recording job =>
    obtain rfl : b = _ := by simpa only [hphase, BookMatches] using h
    cases m with
    | record =>
      simp only [move?, hphase] at hmove
      refine .of_enter hmove ?_
      simpa [BookMatches, Book.add, Book.blank, hphase, Phase.job?] using Concludes.copied job.total
    | _ => simp [move?, hphase] at hmove
  | _ => simp [hphase, Phase.job?] at hjob

/-- Until it leaves the slot a worker has neither left nor spoken. -/
theorem Concludes.fresh (h : Concludes cancelled b reply) : b.departures = [] ∧ b.replies = [] := by
  cases h <;> exact ⟨rfl, rfl⟩

theorem Concludes.cancelled_of_none (h : Concludes cancelled b none) : cancelled = true := by
  cases h with
  | gaveUp hcancelled => exact hcancelled

theorem BookMatches.concluding (h : BookMatches s.slot.cancelled b w.phase)
    (hjob : w.phase.job? = none) (hstage : w.phase.stage ≠ .waiting)
    (hconnecting : ∀ direction stream deadline, w.phase ≠ .connecting direction stream deadline)
    (hmove : w.move? m s = some (w', s')) :
    BookMatches s.slot.cancelled (b.add w s m) w'.phase := by
  cases hphase : w.phase with
  | waiting => simp [hphase, Phase.stage] at hstage
  | connecting => exact absurd hphase (hconnecting _ _ _)
  | checking | reading | writing | closing | recording => simp [hphase, Phase.job?] at hjob
  | retiring reply =>
    have hconcludes : Concludes s.slot.cancelled b reply := by
      simpa only [hphase, BookMatches] using h
    cases m with
    | lock =>
      simp only [move?, hphase, Option.map_eq_some_iff] at hmove
      obtain ⟨control, -, hmove⟩ := hmove
      exact .of_enter (congrArg some hmove) hconcludes
    | _ => simp [move?, hphase] at hmove
  | releasing reply =>
    have hconcludes : Concludes s.slot.cancelled b reply := by
      simpa only [hphase, BookMatches] using h
    obtain ⟨hdepartures, hreplies⟩ := hconcludes.fresh
    cases m with
    | release =>
      simp only [move?, hphase] at hmove
      refine .of_enter hmove ?_
      cases reply with
      | none =>
        have hcancelled := hconcludes.cancelled_of_none
        exact ⟨_, b, none, hconcludes, by simp [Book.add, hdepartures, hreplies, hcancelled]⟩
      | some reply =>
        cases hcancelled : s.slot.cancelled with
        | true =>
          exact ⟨true, b, some reply, hcancelled ▸ hconcludes, by
            simp [Book.add, hdepartures, hreplies, hcancelled]⟩
        | false =>
          exact ⟨b, hcancelled ▸ hconcludes, by simp [Book.add, hdepartures, hcancelled]⟩
    | _ => simp [move?, hphase] at hmove
  | reporting reply =>
    obtain ⟨b₀, hconcludes, rfl⟩ : ∃ b₀, Concludes false b₀ (some reply) ∧ b = _ := by
      simpa only [hphase, BookMatches] using h
    cases m with
    | report =>
      simp only [move?, hphase] at hmove
      refine .of_enter hmove ⟨false, b₀, some reply, hconcludes, ?_⟩
      simp [Book.add, hphase, Phase.reply?, hconcludes.fresh.2]
    | _ => simp [move?, hphase] at hmove
  | unlocking =>
    have hsettled : b.Settled := by simpa only [hphase, BookMatches] using h
    cases m with
    | unlock =>
      simp only [move?, hphase] at hmove
      exact .of_enter hmove hsettled
    | _ => simp [move?, hphase] at hmove
  | leaving =>
    have hconcludes : Concludes s.slot.cancelled b none := by
      simpa only [hphase, BookMatches] using h
    obtain ⟨hdepartures, hreplies⟩ := hconcludes.fresh
    have hcancelled := hconcludes.cancelled_of_none
    cases m with
    | leave =>
      simp only [move?, hphase] at hmove
      refine .of_enter hmove ⟨_, b, none, hconcludes, ?_⟩
      simp [Book.add, hdepartures, hreplies, hcancelled]
    | _ => simp [move?, hphase] at hmove
  | ended => simp [move?, hphase] at hmove

theorem BookMatches.move (h : BookMatches s.slot.cancelled b w.phase)
    (hmove : w.move? m s = some (w', s')) :
    BookMatches s'.slot.cancelled (b.add w s m) w'.phase := by
  rw [(advance_of_move hmove).cancelled]
  cases hphase : w.phase with
  | waiting => exact h.waiting hphase hmove
  | connecting => exact h.connecting hphase hmove
  | checking | reading | writing | closing | recording =>
    exact h.copying (by rw [hphase]; rfl) hmove
  | _ =>
    exact h.concluding (by rw [hphase]; rfl) (by simp [hphase, Phase.stage]) (by simp [hphase])
      hmove

theorem BookMatches.other (h : BookMatches cancelled b phase)
    (hcancelled : phase.stage = .serving → cancelled = true → cancelled' = true) :
    BookMatches cancelled' b phase := by
  cases phase with
  | retiring | releasing | leaving => exact Concludes.mono h (hcancelled rfl)
  | _ => exact h

theorem Runs.bookMatches (hrun : Runs w₀ s₀ l w s)
    (hstart : BookMatches s₀.slot.cancelled .blank w₀.phase) :
    BookMatches s.slot.cancelled (book l) w.phase := by
  induction hrun with
  | start => exact hstart
  | move _ hmove ih => exact book_snoc _ _ ▸ ih.move hmove
  | other _ hcancelled ih => exact ih.other hcancelled

/-- The peer may have the data connection: after `PASV` only that of the control connection. -/
def MayConnect (endpoint : Endpoint) (peer : Socket) : Prop :=
  ∀ port owner, endpoint = .passive port owner → peer.ip.canonical = owner.canonical

theorem admits_iff (endpoint : Endpoint) (peer : Socket) :
    admits endpoint peer = true ↔ MayConnect endpoint peer := by
  cases endpoint with
  | passive port owner => simp [admits, Endpoint.sameHost, MayConnect]
  | active address => simp [admits, MayConnect]

theorem Runs.endpoint (hrun : Runs w₀ s₀ l w s) :
    w.endpoint = w₀.endpoint ∧ ∀ x ∈ l, x.worker.endpoint = w₀.endpoint := by
  induction hrun with
  | start => simp
  | move _ hmove ih =>
    rw [enter_of_move hmove]
    refine ⟨ih.1, fun x hx => ?_⟩
    rcases List.mem_append.1 hx with hx | hx
    · exact ih.2 x hx
    · exact List.mem_singleton.1 hx ▸ ih.1
  | other _ _ ih => exact ih

theorem Book.connected_add (b : Book) (w : Worker) (s : Shared) (m : Move) :
    (b.add w s m).connected = true ↔ b.connected = true ∨
      ∃ peer incoming, m = .connect peer incoming ∧ MayConnect w.endpoint peer := by
  cases m <;> simp [add, admits_iff]

theorem connected_iff : (book l).connected = true ↔
    ∃ x ∈ l, ∃ peer incoming, x.move = .connect peer incoming ∧
      MayConnect x.worker.endpoint peer := by
  induction l using List.reverseRecOn with
  | nil => simp [book, Book.blank]
  | append_singleton l x ih => simp [book_snoc, Book.connected_add, ih, or_and_right, exists_or]

theorem Book.put_add (b : Book) (w : Worker) (s : Shared) (m : Move) :
    (b.add w s m).put = b.put + (w.puts m).length := by
  cases m <;> simp [add, puts]

theorem puts_of_put_eq_zero (h : (book l).put = 0) : ∀ x ∈ l, x.worker.puts x.move = [] := by
  induction l using List.reverseRecOn with
  | nil => simp
  | append_singleton l x ih =>
    rw [book_snoc, Book.put_add] at h
    obtain ⟨hbefore, hlast⟩ := Nat.add_eq_zero_iff.1 h
    intro y hy
    rcases List.mem_append.1 hy with hy | hy
    · exact ih hbefore y hy
    · exact List.mem_singleton.1 hy ▸ List.length_eq_zero_iff.1 hlast

/-- What one step puts into the book stays there. -/
theorem holds_of_mem {P : Book → Prop} {x : Step} (hx : x ∈ l)
    (hadds : ∀ b : Book, P (b.add x.worker x.before x.move))
    (hkeeps : ∀ (b : Book) (w : Worker) (s : Shared) (m : Move), P b → P (b.add w s m)) :
    P (book l) := by
  induction l using List.reverseRecOn with
  | nil => simp at hx
  | append_singleton l y ih =>
    rw [book_snoc]
    rcases List.mem_append.1 hx with hx | hx
    · exact hkeeps _ _ _ _ (ih hx)
    · exact List.mem_singleton.1 hx ▸ hadds (book l)

theorem mem_recorded {x : Step} (hx : x ∈ l) (hm : x.move = .record)
    (hjob : x.worker.phase.job? = some job) : job.total ∈ (book l).recorded := by
  refine holds_of_mem (P := fun b => job.total ∈ b.recorded) hx (fun b => ?_) fun b w s m hb => ?_
  · simp [hm, Book.add, hjob]
  · cases m <;> simp [Book.add, hb]

theorem mem_replies {x : Step} {reply : Reply} (hx : x ∈ l) (hm : x.move = .report)
    (hreply : x.worker.phase.reply? = some reply) : reply ∈ (book l).replies := by
  refine holds_of_mem (P := fun b => reply ∈ b.replies) hx (fun b => ?_) fun b w s m hb => ?_
  · simp [hm, Book.add, hreply]
  · cases m <;> simp [Book.add, hb]

/-- What a worker with this endpoint did in all, once it has ended. -/
structure Balanced (endpoint : Endpoint) (b : Book) (l : List Step) (cancelled : Bool) : Prop where
  /-- It left the slot once; the transfer was cancelled by then, or not. -/
  leaves : b.departures = [cancelled]
  /-- It said what the transfer called for, unless it was cancelled by then. -/
  replies : b.replies = if cancelled then [] else [b.verdict]
  connected : b.connected = true ↔
    ∃ x ∈ l, ∃ peer incoming, x.move = .connect peer incoming ∧ MayConnect endpoint peer
  /-- Without a data connection no byte was read or written. -/
  idle : b.connected = false →
    b.taken = 0 ∧ b.put = 0 ∧ ∀ x ∈ l, x.after.tree = x.before.tree
  /-- What was closed had been copied. -/
  copied : b.closed = true → b.connected = true ∧ b.taken = b.put
  broken : b.broken = true → b.connected = true ∧ b.closed = false
  /-- Only an error or a cancel keeps a transfer from being closed. -/
  unbroken : cancelled = false → b.connected = true → b.closed = false → b.broken = true
  /-- A transfer that was closed was added to the totals, once, and no other was. -/
  recorded : b.recorded = if b.closed then [b.put] else []

theorem Concludes.balanced {endpoint : Endpoint} {b₀ : Book} (h : Concludes cancelled b₀ reply)
    (hb : b = { b₀ with
      departures := [cancelled], replies := if cancelled then [] else reply.toList })
    (hconnected : b.connected = true ↔
      ∃ x ∈ l, ∃ peer incoming, x.move = .connect peer incoming ∧ MayConnect endpoint peer)
    (hidle : b.put = 0 → ∀ x ∈ l, x.after.tree = x.before.tree) :
    Balanced endpoint b l cancelled := by
  subst hb
  cases h with
  | @gaveUp connected taken put hcancelled hnothing =>
    subst hcancelled
    refine ⟨rfl, rfl, hconnected, fun hout => ?_, ?_, ?_, ?_, ?_⟩
    · obtain ⟨htaken, hput⟩ := hnothing hout
      exact ⟨htaken, hput, hidle hput⟩
    all_goals simp [Book.blank]
  | unconnected =>
    refine ⟨rfl, by simp [Book.verdict, Book.blank], hconnected, ?_, ?_, ?_, ?_, ?_⟩
    · exact fun _ => ⟨rfl, rfl, hidle rfl⟩
    all_goals simp [Book.blank]
  | copied n =>
    refine ⟨rfl, by simp [Book.verdict], hconnected, ?_, ?_, ?_, ?_, ?_⟩
    all_goals simp [Book.blank]
  | broken taken put =>
    refine ⟨rfl, by simp [Book.verdict, Book.blank], hconnected, ?_, ?_, ?_, ?_, ?_⟩
    all_goals simp [Book.blank]

structure BorneOut (l : List Step) : Prop where
  shows : ∀ x ∈ l, x.Shows
  /-- Whatever was added to the totals is the number of bytes that were copied. -/
  records : ∀ x ∈ l, x.move = .record →
    x.after.slot = x.before.slot.record (UInt64.ofNat (book l).put)
  /-- Whatever was said is what the transfer called for. -/
  reports : ∀ x ∈ l, x.move = .report →
    x.after.control = (x.before.control.write (.worker x.worker.number) (book l).verdict).2

theorem Balanced.borneOut {endpoint : Endpoint} (h : Balanced endpoint (book l) l cancelled)
    (hshows : ∀ x ∈ l, x.Shows) : BorneOut l := by
  refine ⟨hshows, fun x hx hm => ?_, fun x hx hm => ?_⟩
  · obtain ⟨job, hjob, hslot⟩ := (hshows x hx).records hm
    have hmem := h.recorded ▸ mem_recorded hx hm hjob
    split at hmem
    next => exact List.mem_singleton.1 hmem ▸ hslot
    next => cases hmem
  · obtain ⟨reply, hreply, hcontrol⟩ := (hshows x hx).reports hm
    have hmem := h.replies ▸ mem_replies hx hm hreply
    split at hmem
    next => cases hmem
    next => exact List.mem_singleton.1 hmem ▸ hcontrol

/-- However its peer, its files and those who share the slot behave, a worker that ends has left
the slot once, and accounts for all that it did. -/
theorem exit_accounted (number : Nat) (endpoint : Endpoint) (bufferSize timeoutMs : Nat)
    (s₀ s : Shared) (l : List Step) (w : Worker)
    (hrun : Runs (start number endpoint bufferSize timeoutMs) s₀ l w s)
    (hended : w.phase = .ended) :
    BorneOut l ∧ ∃ cancelled, Balanced endpoint (book l) l cancelled := by
  have hmatches := hrun.bookMatches rfl
  rw [hended] at hmatches
  obtain ⟨cancelled, b₀, reply, hconcludes, hbook⟩ := hmatches
  have hbalanced : Balanced endpoint (book l) l cancelled := by
    refine hconcludes.balanced hbook ?_ fun hput x hx => ?_
    · rw [connected_iff]
      refine exists_congr fun x => and_congr_right fun hx => ?_
      rw [hrun.endpoint.2 x hx]
      rfl
    · exact (hrun.shows x hx).keepsTree (puts_of_put_eq_zero hput x hx)
  exact ⟨hbalanced.borneOut hrun.shows, cancelled, hbalanced⟩

/-- The owner of a passive listener comes from a wrapped address for a listing of three bytes, and
the cancel comes when the worker has left the slot and not yet spoken. -/
theorem exit_accounted_before_a_late_cancel :
    let endpoint : Endpoint := .passive 2121 (.v4 ⟨10, 0, 0, 7⟩)
    let transfer : Transfer := ⟨.sendListing, some (.source (.bytes [97, 98, 99]))⟩
    let s₀ : Shared := ⟨Slot.fresh.rearm.install transfer, .fresh, ⟨[], [], [], 0⟩, 0⟩
    ∃ l w s, Runs (start 0 endpoint 2 1000) s₀ l w s ∧ w.phase = .ended ∧
      s.slot.cancelled = true ∧ s.slot.totals = ⟨1, 3⟩ ∧
      s.control.sent = [(.worker 0, complete)] ∧
      book l = ⟨true, true, false, 3, 3, [3], [false], [complete]⟩ ∧
      BorneOut l ∧ ∃ cancelled, Balanced endpoint (book l) l cancelled := by
  intro endpoint transfer s₀
  let peer : Socket := ⟨.v6 ⟨[0, 0, 0, 0, 0, 0xFFFF, 0x0A00, 0x0007]⟩, 40000, 0⟩
  have hstart : Runs (start 0 endpoint 2 1000) s₀ [] _ _ := .start
  have hcopied := hstart.move (m := .look) rfl |>.move (m := .connect peer []) rfl
    |>.move (m := .check) rfl |>.move (m := .read 2) rfl |>.move (m := .write 2) rfl
    |>.move (m := .check) rfl |>.move (m := .read 1) rfl |>.move (m := .write 1) rfl
    |>.move (m := .check) rfl |>.move (m := .read 0) rfl |>.move (m := .close) rfl
    |>.move (m := .record) rfl
  have hended := hcopied.move (m := .lock) rfl |>.move (m := .release) rfl |>.cancel
    |>.move (m := .report) rfl |>.move (m := .unlock) rfl
  refine ⟨_, _, _, hended, rfl, rfl, ?_, ?_, ?_, exit_accounted _ _ _ _ _ _ _ _ hended rfl⟩
  · decide +kernel
  · decide +kernel
  · decide +kernel

end Worker

end FtpServer
