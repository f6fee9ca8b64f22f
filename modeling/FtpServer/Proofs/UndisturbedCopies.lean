import FtpServer.Proofs.Copies

/-!
# Copies that nobody disturbs

A worker copies while others do what they like, as long as they leave it alone and what its file
holds.  What has gone out is then a beginning of what there was to copy, at the peer or in the file,
and all of it once the worker reports that the transfer is complete.
-/

namespace FtpServer

open Text

namespace Scene

variable {s s' t u : Scene} {n : Nat} {w : Worker} {m : Worker.Move} {file : Option Nat}
variable {stream : Stream Source Sink} {incoming bytes before sent : Bytes} {direction : Direction}

/-- Worker `n` passes on `sent`.  Whatever else happens leaves the worker alone, and what the file
holds that it reads or writes. -/
inductive Carries (n : Nat) (file : Option Nat) (s : Scene) : Bytes → Scene → Prop
  | refl : Carries n file s [] s
  | move {t u : Scene} {sent : Bytes} {w : Worker} {m : Worker.Move}
      (hbefore : Carries n file s sent t) (hw : t.workers[n]? = some w)
      (hmove : t.moveWorker? n m = some u) : Carries n file s (sent ++ w.puts m) u
  | other {t u : Scene} {sent : Bytes} (hbefore : Carries n file s sent t)
      (hworker : u.workers[n]? = t.workers[n]?)
      (hfile : ∀ k, file = some k →
        u.shared.tree.contents[k]? = t.shared.tree.contents[k]?) : Carries n file s sent u

/-- Worker `n` is in the middle of copying `bytes`, of which `sent` has gone out. -/
structure Copying (n : Nat) (file : Option Nat) (bytes sent : Bytes) (s : Scene) (w : Worker) :
    Prop where
  worker : s.workers[n]? = some w
  buffer : 0 < w.bufferSize
  hasSent : w.phase.HasSent bytes sent s.shared.tree
  file : ∀ job, w.phase.job? = some job → job.stream.content? = file

theorem Copying.move {s₁ : Scene} (h : s.Copying n file bytes sent w)
    (hmove : s.moveWorker? n m = some s₁) :
    ∃ w', s₁.Copying n file bytes (sent ++ w.puts m) w' ∧
      w.CopyStep s.shared.tree m w'.phase s₁.shared.tree := by
  obtain ⟨v, w', hv, hmoved, hw', -⟩ := workers_of_moveWorker hmove
  obtain rfl := Option.some.inj (h.worker.symm.trans hv)
  have hstep := Worker.copyStep_of_move h.hasSent.copies hmoved
  have hbuffer : w'.bufferSize = w.bufferSize := by
    rw [Worker.enter_of_move hmoved]
    rfl
  refine ⟨w', ⟨hw', hbuffer ▸ h.buffer, hstep.hasSent h.buffer h.hasSent, fun job hjob => ?_⟩,
    hstep⟩
  exact hstep.content?_eq h.buffer h.file hjob

theorem Copying.other (h : s.Copying n file bytes sent w)
    (hworker : s'.workers[n]? = s.workers[n]?)
    (hfile : ∀ k, file = some k → s'.shared.tree.contents[k]? = s.shared.tree.contents[k]?) :
    s'.Copying n file bytes sent w := by
  refine ⟨hworker.trans h.worker, h.buffer, h.hasSent.congr fun job hjob => ?_, h.file⟩
  exact Job.rest_congr fun k hk => hfile k ((h.file job hjob).symm.trans hk)

theorem Carries.copying (h : s.Carries n file sent s') (hs : s.Copying n file bytes [] w) :
    ∃ w', s'.Copying n file bytes sent w' := by
  induction h with
  | refl => exact ⟨w, hs⟩
  | @move t u sent v m _ hv hmove ih =>
    obtain ⟨v', hcopying⟩ := ih
    obtain rfl := Option.some.inj (hcopying.worker.symm.trans hv)
    obtain ⟨w', hcopying', -⟩ := hcopying.move hmove
    exact ⟨w', hcopying'⟩
  | other _ hworker hfile ih =>
    obtain ⟨v, hcopying⟩ := ih
    exact ⟨v, hcopying.other hworker hfile⟩

/-- Whatever leaves the content alone leaves there what has landed. -/
theorem hasReceived_congr {t t' : Tree} {phase : Phase} (h : stream.HasReceived before sent t phase)
    (hfile : ∀ k, stream.content? = some k → t'.contents[k]? = t.contents[k]?) :
    stream.HasReceived before sent t' phase := by
  cases stream with
  | source => exact h
  | sink sink =>
    cases sink with
    | file k offset =>
      have hsame : t'.contents[k]? = t.contents[k]? := hfile k rfl
      have hcontent : t'.content k = t.content k := by simp [Tree.content, hsame]
      obtain ⟨⟨hlt, hbytes⟩, hjob⟩ := h
      have hlt' : k < t'.contents.length := by
        rw [List.getElem?_eq_getElem hlt] at hsame
        exact (List.getElem?_eq_some_iff.1 hsame).1
      exact ⟨⟨hlt', by rw [hcontent]; exact hbytes⟩, by rw [hcontent]; exact hjob⟩
    | unwritable => exact h

theorem Carries.hasReceived (h : s.Carries n stream.content? sent s')
    (hs : s.Copying n stream.content? bytes [] w)
    (hreceived : stream.HasReceived before [] s.shared.tree w.phase) :
    ∃ w', s'.workers[n]? = some w' ∧ stream.HasReceived before sent s'.shared.tree w'.phase := by
  induction h with
  | refl => exact ⟨w, hs.worker, hreceived⟩
  | @move t u sent v m hbefore hv hmove ih =>
    obtain ⟨v', hv', hreceived⟩ := ih
    obtain rfl := Option.some.inj (hv'.symm.trans hv)
    -- That the worker copies is known from the run so far, not from where the bytes have landed.
    obtain ⟨v'', hcopying⟩ := hbefore.copying hs
    obtain rfl := Option.some.inj (hcopying.worker.symm.trans hv)
    obtain ⟨w', hcopying', hstep⟩ := hcopying.move hmove
    exact ⟨w', hcopying'.worker, hstep.hasReceived hcopying.buffer hreceived⟩
  | other _ hworker hfile ih =>
    obtain ⟨v, hv, hreceived⟩ := ih
    exact ⟨v, hworker.trans hv, hasReceived_congr hreceived hfile⟩

structure Connected (n : Nat) (direction : Direction) (stream : Stream Source Sink)
    (incoming : Bytes) (s : Scene) (w : Worker) : Prop where
  worker : s.workers[n]? = some w
  phase : w.phase = .checking ⟨direction, stream, incoming, [], 0⟩
  buffer : 0 < w.bufferSize

theorem Connected.copying (h : s.Connected n direction stream incoming w) :
    s.Copying n stream.content? (s.shared.tree.supply incoming stream) [] w := by
  refine ⟨h.worker, h.buffer, ?_, fun job hjob => ?_⟩
  · rw [h.phase]
    exact ⟨rfl, rfl⟩
  · rw [h.phase] at hjob
    obtain rfl := Option.some.inj hjob
    rfl

/-- What goes out is a beginning of the bytes; all of them, as many as are counted, once the copy is
complete. -/
theorem Connected.carries (h : s.Connected n direction stream incoming w)
    (hcarries : s.Carries n stream.content? sent s') :
    ∃ w', s'.workers[n]? = some w' ∧ sent <+: s.shared.tree.supply incoming stream ∧
      (∀ job, w'.phase = .recording job →
        sent = s.shared.tree.supply incoming stream ∧ job.total = sent.length) ∧
      (w'.phase.reply? = some Worker.complete → sent = s.shared.tree.supply incoming stream) := by
  obtain ⟨w', hcopying⟩ := hcarries.copying h.copying
  have hprogress := hcopying.hasSent
  refine ⟨w', hcopying.worker, hprogress.sent_prefix, fun job hjob => ?_, fun hcomplete => ?_⟩
  · rw [hjob] at hprogress
    obtain ⟨hbytes, htotal⟩ := hprogress
    exact ⟨hbytes.symm, htotal.trans (congrArg List.length hbytes)⟩
  · cases hphase : w'.phase with
    | retiring | releasing | reporting | unlocking | ended =>
      rw [hphase] at hprogress hcomplete
      exact hprogress.2 hcomplete
    | _ => rw [hphase] at hcomplete; cases hcomplete

theorem Connected.delivered {origin : Source}
    (h : s.Connected n direction (.source origin) incoming w)
    (hcarries : s.Carries n origin.content? sent s') :
    ∃ w', s'.workers[n]? = some w' ∧ ∀ job, w'.phase.job? = some job → job.delivered = sent := by
  have hreceived : Stream.HasReceived [] [] s.shared.tree w.phase (.source origin) := by
    intro job hjob
    rw [h.phase] at hjob
    obtain rfl := Option.some.inj hjob
    exact ⟨⟨origin, rfl⟩, rfl⟩
  obtain ⟨w', hw', hreceived'⟩ := Carries.hasReceived hcarries h.copying hreceived
  exact ⟨w', hw', fun job hjob => (hreceived' job hjob).2⟩

theorem Connected.written {k offset : Nat}
    (h : s.Connected n direction (.sink (.file k offset)) incoming w)
    (hfile : k < s.shared.tree.contents.length)
    (hend : offset = (s.shared.tree.content k).size) (hcarries : s.Carries n (some k) sent s') :
    (s'.shared.tree.content k).toBytes = (s.shared.tree.content k).toBytes ++ sent := by
  have hreceived : Stream.HasReceived (s.shared.tree.content k).toBytes [] s.shared.tree w.phase
      (.sink (.file k offset)) := by
    refine ⟨⟨hfile, by simp⟩, fun job hjob => ?_⟩
    rw [h.phase] at hjob
    obtain rfl := Option.some.inj hjob
    rw [hend]
  obtain ⟨w', -, hreceived'⟩ := Carries.hasReceived hcarries h.copying hreceived
  exact hreceived'.1.2

structure Copied (stream : Stream Source Sink) (incoming sent : Bytes) (s s' : Scene) (w : Worker) :
    Prop where
  /-- Whenever the copy comes to an end, by failure or cancellation too. -/
  sent_prefix : sent <+: s.shared.tree.supply incoming stream
  complete : ∀ job, w.phase = .recording job →
    sent = s.shared.tree.supply incoming stream ∧ job.total = sent.length
  reported : w.phase.reply? = some Worker.complete → sent = s.shared.tree.supply incoming stream
  delivered : ∀ origin job, stream = .source origin → w.phase.job? = some job →
    job.delivered = sent
  written : ∀ k, stream = .sink (.file k (s.shared.tree.content k).size) →
    k < s.shared.tree.contents.length →
      (s'.shared.tree.content k).toBytes = (s.shared.tree.content k).toBytes ++ sent

theorem Connected.copied (h : s.Connected n direction stream incoming w)
    (hcarries : s.Carries n stream.content? sent s') :
    ∃ w', s'.workers[n]? = some w' ∧ Copied stream incoming sent s s' w' := by
  obtain ⟨w', hw', hprefix, hrecording, hcomplete⟩ := h.carries hcarries
  refine ⟨w', hw', hprefix, hrecording, hcomplete, fun origin job hstream hjob => ?_,
    fun k hstream hk => ?_⟩
  · subst hstream
    obtain ⟨v, hv, hdelivered⟩ := h.delivered hcarries
    obtain rfl := Option.some.inj (hw'.symm.trans hv)
    exact hdelivered job hjob
  · subst hstream
    exact h.written hk rfl hcarries

/-- Worker `n` carries the transfer through, up to the report that it is complete.  Nobody else
touches what the file holds, from the opening of the host's end on. -/
inductive Fulfils (s : Scene) : Transfer → Bytes → Bytes → Scene → Prop
  | intro {n : Nat} {w w' : Worker} {direction : Direction} {stream : Stream Source Sink}
      {incoming sent : Bytes} {t s' : Scene}
      (hkept : ∀ k, stream.content? = some k →
        t.shared.tree.contents[k]? = s.shared.tree.contents[k]?)
      (hconnected : t.Connected n direction stream incoming w)
      (hcarries : t.Carries n stream.content? sent s')
      (hworker : s'.workers[n]? = some w') (hphase : w'.phase = .reporting Worker.complete) :
      Fulfils s ⟨direction, some stream⟩ incoming sent s'

theorem Fulfils.sent_eq (h : s.Fulfils ⟨direction, some stream⟩ incoming sent s') :
    sent = s.shared.tree.supply incoming stream := by
  cases h with
  | intro hkept hconnected hcarries hworker hphase =>
    obtain ⟨w, hw, -, -, hcomplete⟩ := hconnected.carries hcarries
    obtain rfl := Option.some.inj (hw.symm.trans hworker)
    rw [hcomplete (by rw [hphase]; rfl)]
    cases stream with
    | source => exact Tree.rest_congr hkept
    | sink => rfl

theorem Fulfils.nothing {cause : OsError}
    (h : s.Fulfils ⟨direction, some (.sink (.unwritable cause))⟩ incoming sent s') :
    incoming = [] := by
  have hsent : sent = incoming := h.sent_eq
  cases h with
  | @intro n w w' _ _ _ _ t _ hkept hconnected hcarries hworker hphase =>
    have hreceived :
        Stream.HasReceived [] [] t.shared.tree w.phase (.sink (.unwritable cause)) := by
      refine ⟨rfl, fun job hjob => ?_⟩
      rw [hconnected.phase] at hjob
      obtain rfl := Option.some.inj hjob
      rfl
    obtain ⟨v, -, hnone, -⟩ := Carries.hasReceived hcarries hconnected.copying hreceived
    exact hsent.symm.trans hnone

end Scene

end FtpServer
