import FtpServer.Proofs.Frame
import FtpServer.Proofs.Tree.Contents

/-!
# How a worker copies

What went out, what is left of the block and what is left of the source make up the bytes of the
transfer at every moment.  So a copy that comes to its end has passed on all of them, and one that
ends before has passed on a beginning.
-/

namespace FtpServer

open Text

def Stream.content? : Stream Source Sink → Option Nat
  | .source origin => origin.content?
  | .sink (.file content _) => some content
  | .sink (.unwritable _) => none

/-- The bytes that a transfer is about: those of the source, or those that come in. -/
def Tree.supply (t : Tree) (incoming : Bytes) : Stream Source Sink → Bytes
  | .source origin => t.rest origin
  | .sink _ => incoming

inductive Stream.ReadOn : Stream Source Sink → Stream Source Sink → Prop
  | source {source source' : Source} (h : source'.content? = source.content?) :
      ReadOn (.source source) (.source source')
  | sink (sink : Sink) : ReadOn (.sink sink) (.sink sink)

theorem Stream.ReadOn.refl (stream : Stream Source Sink) : stream.ReadOn stream := by
  cases stream with
  | source => exact .source rfl
  | sink sink => exact .sink sink

theorem Stream.ReadOn.content?_eq {stream stream' : Stream Source Sink}
    (h : stream.ReadOn stream') : stream'.content? = stream.content? := by
  cases h with
  | source hsame => exact hsame
  | sink => rfl

namespace Job

def rest (job : Job) (t : Tree) : Bytes := t.supply job.incoming job.stream

theorem rest_congr {job : Job} {t t' : Tree}
    (h : ∀ k, job.stream.content? = some k → t'.contents[k]? = t.contents[k]?) :
    job.rest t' = job.rest t := by
  unfold rest
  cases hstream : job.stream with
  | source source =>
    rw [hstream] at h
    exact Tree.rest_congr h
  | sink => rfl

end Job

def Phase.job? : Phase → Option Job
  | .checking job | .reading job | .writing job _ _ | .closing job | .recording job => some job
  | _ => none

/-- A worker that has, or had, its data connection. -/
def Phase.copies : Phase → Bool
  | .waiting _ | .connecting _ _ _ | .leaving => false
  | _ => true

namespace Worker

variable {w w' : Worker} {m : Move} {s s' : Shared} {t t' : Tree} {job job' : Job}
variable {block chunk bytes before sent : Bytes} {count : Nat} {phase phase' : Phase}
variable {stream : Stream Source Sink}

/-- What a worker passes on in a move. -/
def puts (w : Worker) : Move → Bytes
  | .write count =>
    match w.phase with
    | .writing _ _ left => left.take count
    | _ => []
  | _ => []

/-- A block is the beginning of what was left, and there is none only at the end. -/
theorem takeBlock_eq_some (hbuffer : 0 < w.bufferSize)
    (h : takeBlock t w.bufferSize count job = some (block, job')) :
    job.rest t = block ++ job'.rest t ∧ (block = [] → job'.rest t = []) ∧
      job'.total = job.total ∧ job'.delivered = job.delivered ∧ job.stream.ReadOn job'.stream := by
  unfold takeBlock at h
  split at h
  next => cases h
  next =>
    split at h
    next sink hstream =>
      split at h
      next hcount =>
        obtain ⟨rfl, rfl⟩ := Prod.mk.inj (Option.some.inj h)
        refine ⟨?_, fun hnone => ?_, rfl, rfl, hstream ▸ .sink sink⟩
        · simp [Job.rest, Tree.supply, hstream]
        · have hzero : count = 0 ∨ job.incoming = [] := List.take_eq_nil_iff.1 hnone
          have hincoming : job.incoming = [] := by
            rcases hzero with hzero | hincoming
            · exact (hcount.2 hzero).resolve_right (by omega)
            · exact hincoming
          simp [Job.rest, Tree.supply, hstream, hincoming]
      next => cases h
    next source hstream =>
      split at h
      next chunk source' most _ hread hmost =>
        split at h
        next hcount =>
          obtain ⟨rfl, rfl⟩ := Prod.mk.inj (Option.some.inj h)
          obtain ⟨-, hsplit, hsame⟩ := Tree.readSource_eq_ok hread
          obtain ⟨hmost, -, -⟩ := Tree.readSource_eq_ok hmost
          refine ⟨?_, fun hnone => ?_, rfl, rfl, hstream ▸ .source hsame⟩
          · simpa [Job.rest, Tree.supply, hstream] using hsplit
          · -- A source gives an empty block only where it has nothing for the whole buffer.
            subst hnone
            have hzero := hcount.2 hcount.1.symm
            rw [hzero] at hmost
            have hempty : t.rest source = [] :=
              (List.take_eq_nil_iff.1 hmost.symm).resolve_left (by omega)
            rw [hempty] at hsplit
            simpa [Job.rest, Tree.supply] using hsplit.symm
        next => cases h
      next => cases h

theorem putBytes_eq_some (h : putBytes t chunk job = some (job', t')) :
    job'.rest t' = job.rest t ∧ job'.total = job.total ∧
      job'.stream.content? = job.stream.content? := by
  unfold putBytes at h
  split at h
  next source hstream =>
    obtain ⟨rfl, rfl⟩ := Prod.mk.inj (Option.some.inj h)
    exact ⟨rfl, rfl, rfl⟩
  next sink hstream =>
    split at h
    next sink' t₁ hwrite =>
      obtain ⟨rfl, rfl⟩ := Prod.mk.inj (Option.some.inj h)
      refine ⟨by simp [Job.rest, Tree.supply, hstream], rfl, ?_⟩
      rw [hstream]
      cases sink with
      | file content offset =>
        obtain ⟨rfl, -⟩ := Prod.mk.inj (Except.ok.inj hwrite)
        rfl
      | unwritable cause =>
        obtain ⟨-, rfl, -⟩ := Tree.writeSink_unwritable hwrite
        rfl
    next => cases h

/-- What a move does that a worker makes once it has its data connection. -/
inductive CopyStep (w : Worker) (t : Tree) : Move → Phase → Tree → Prop
  | checks {job : Job} (hphase : w.phase = .checking job) : CopyStep w t .check (.reading job) t
  | reads {job job' : Job} {block : Bytes} {count : Nat} (hphase : w.phase = .reading job)
      (htake : takeBlock t w.bufferSize count job = some (block, job')) :
      CopyStep w t (.read count)
        (if block = [] then .closing job' else .writing job' block.length block) t
  | writes {job job' : Job} {size count : Nat} {left : Bytes} {t' : Tree}
      (hphase : w.phase = .writing job size left) (hcount : count ≤ left.length)
      (hput : putBytes t (left.take count) job = some (job', t')) :
      CopyStep w t (.write count)
        (if count = left.length then .checking { job' with total := job'.total + size }
          else .writing job' size (left.drop count)) t'
  | closes {job : Job} (hphase : w.phase = .closing job) : CopyStep w t .close (.recording job) t
  | records {job : Job} (hphase : w.phase = .recording job) :
      CopyStep w t .record (.retiring (some complete)) t
  | stops {m : Move} {job : Job} {reply : Option Reply} (hjob : w.phase.job? = some job)
      (hreply : reply ≠ some complete) (hputs : w.puts m = []) : CopyStep w t m (.retiring reply) t
  | winds {m : Move} {phase' : Phase} (hjob : w.phase.job? = none) (hputs : w.puts m = [])
      (hjob' : phase'.job? = none) (hcopies : phase'.copies = true)
      (hreply : ∀ r, phase'.reply? = some r → w.phase.reply? = some r) : CopyStep w t m phase' t

def Move.stops : Move → Bool
  | .cancel | .readFails _ | .writeFails _ | .closeFails _ => true
  | _ => false

theorem puts_of_stops (hstops : m.stops = true) : w.puts m = [] := by
  cases m <;> first | rfl | cases hstops

theorem CopyStep.of_enter {s₁ : Shared} (h : some (w.enter phase, s₁) = some (w', s'))
    (hstep : w.CopyStep t m phase s₁.tree) : w.CopyStep t m w'.phase s'.tree := by
  obtain ⟨rfl, rfl⟩ := Prod.mk.inj (Option.some.inj h)
  exact hstep

theorem copyStep_of_stop (hjob : w.phase.job? = some job) (hstops : m.stops = true)
    (h : w.move? m s = some (w', s')) : w.CopyStep s.tree m w'.phase s'.tree := by
  have hputs := puts_of_stops (w := w) hstops
  unfold move? at h
  repeat' split at h
  all_goals
    first
      | contradiction
      | exact .of_enter h (.stops hjob (by decide) hputs)
      | simp_all [Phase.job?]

theorem copyStep_of_move (hcopies : w.phase.copies = true)
    (h : w.move? m s = some (w', s')) : w.CopyStep s.tree m w'.phase s'.tree := by
  cases hphase : w.phase with
  | waiting | connecting | leaving => rw [hphase] at hcopies; cases hcopies
  | checking job =>
    cases m with
    | check =>
      simp only [move?, hphase] at h
      split at h
      next => cases h
      next => exact .of_enter h (.checks hphase)
    | cancel => exact copyStep_of_stop (by rw [hphase]; rfl) rfl h
    | _ => simp [move?, hphase] at h
  | reading job =>
    cases m with
    | read count =>
      simp only [move?, hphase] at h
      split at h
      next htake => exact .of_enter h (.reads hphase htake)
      next block job' hblock htake =>
        have hstep := CopyStep.reads hphase htake
        rw [if_neg hblock] at hstep
        exact .of_enter h hstep
      next => cases h
    | readFails | cancel => exact copyStep_of_stop (by rw [hphase]; rfl) rfl h
    | _ => simp [move?, hphase] at h
  | writing job size left =>
    cases m with
    | write count =>
      simp only [move?, hphase] at h
      split at h
      next hcount =>
        split at h
        next hput => exact .of_enter h (.writes hphase hcount.2 hput)
        next => cases h
      next => cases h
    | writeFails | cancel => exact copyStep_of_stop (by rw [hphase]; rfl) rfl h
    | _ => simp [move?, hphase] at h
  | closing job =>
    cases m with
    | close =>
      simp only [move?, hphase] at h
      exact .of_enter h (.closes hphase)
    | closeFails => exact copyStep_of_stop (by rw [hphase]; rfl) rfl h
    | _ => simp [move?, hphase] at h
  | recording job =>
    cases m with
    | record =>
      simp only [move?, hphase] at h
      exact .of_enter h (.records hphase)
    | _ => simp [move?, hphase] at h
  | retiring reply =>
    cases m with
    | lock =>
      simp only [move?, hphase, Option.map_eq_some_iff] at h
      obtain ⟨control, -, h⟩ := h
      exact .of_enter (congrArg some h)
        (.winds (by rw [hphase]; rfl) rfl rfl rfl fun r hr => by rw [hphase]; exact hr)
    | _ => simp [move?, hphase] at h
  | releasing reply =>
    cases m with
    | release =>
      simp only [move?, hphase] at h
      refine .of_enter h (.winds (by rw [hphase]; rfl) rfl ?_ ?_ fun r hr => ?_)
      · repeat' split
        all_goals rfl
      · repeat' split
        all_goals rfl
      · -- A cancel that came first drops the report, and none is made up.
        rw [hphase]
        split at hr
        next reply =>
          split at hr
          next => cases hr
          next => exact hr
        next => cases hr
    | _ => simp [move?, hphase] at h
  | reporting reply =>
    cases m with
    | report =>
      simp only [move?, hphase] at h
      exact .of_enter h (.winds (by rw [hphase]; rfl) rfl rfl rfl fun r hr => by cases hr)
    | _ => simp [move?, hphase] at h
  | unlocking =>
    cases m with
    | unlock =>
      simp only [move?, hphase] at h
      exact .of_enter h (.winds (by rw [hphase]; rfl) rfl rfl rfl fun r hr => by cases hr)
    | _ => simp [move?, hphase] at h
  | ended => simp [move?, hphase] at h

end Worker

/-- How a copy of `bytes` stands when `sent` has gone out. -/
def Phase.HasSent (bytes sent : Bytes) (t : Tree) (phase : Phase) : Prop :=
  match phase with
  | .checking job | .reading job => bytes = sent ++ job.rest t ∧ job.total = sent.length
  | .writing job size left =>
    bytes = sent ++ (left ++ job.rest t) ∧ job.total + size = sent.length + left.length
  | .closing job | .recording job => bytes = sent ∧ job.total = bytes.length
  | .waiting _ | .connecting _ _ _ | .leaving => False
  | .retiring _ | .releasing _ | .reporting _ | .unlocking | .ended =>
    sent <+: bytes ∧ (phase.reply? = some Worker.complete → sent = bytes)

/-- Where `sent` has gone: to the peer, or behind `before` into the file. -/
def Stream.HasReceived (before sent : Bytes) (t : Tree) (phase : Phase) : Stream Source Sink → Prop
  | .source _ => ∀ job, phase.job? = some job →
      (∃ origin, job.stream = .source origin) ∧ job.delivered = sent
  | .sink (.file k _) => (k < t.contents.length ∧ (t.content k).toBytes = before ++ sent) ∧
      ∀ job, phase.job? = some job → job.stream = .sink (.file k (t.content k).size)
  | .sink (.unwritable cause) => sent = [] ∧
      ∀ job, phase.job? = some job → job.stream = .sink (.unwritable cause)

namespace Phase

variable {phase phase' : Phase} {bytes sent before : Bytes} {t t' : Tree} {job : Job}

theorem HasSent.sent_prefix (h : phase.HasSent bytes sent t) : sent <+: bytes := by
  cases phase with
  | checking | reading | writing =>
    rw [h.1]
    exact List.prefix_append ..
  | closing | recording => exact h.1 ▸ List.prefix_rfl
  | waiting | connecting | leaving => cases h
  | retiring | releasing | reporting | unlocking | ended => exact h.1

theorem HasSent.copies (h : phase.HasSent bytes sent t) : phase.copies = true := by
  cases phase <;> first | rfl | cases h

theorem hasSent_of_ended (hjob : phase.job? = none) (hcopies : phase.copies = true) :
    phase.HasSent bytes sent t ↔
      sent <+: bytes ∧ (phase.reply? = some Worker.complete → sent = bytes) := by
  cases phase <;> first | rfl | contradiction

theorem HasSent.congr (h : phase.HasSent bytes sent t)
    (hrest : ∀ job, phase.job? = some job → job.rest t' = job.rest t) :
    phase.HasSent bytes sent t' := by
  cases phase with
  | checking job | reading job | writing job =>
    simp only [HasSent, hrest job rfl]
    exact h
  | _ => exact h

end Phase

namespace Worker

variable {w w' : Worker} {m : Move} {s s' : Shared} {t t' : Tree} {job job' : Job}
variable {block chunk bytes before sent : Bytes} {count : Nat} {phase phase' : Phase}
variable {stream : Stream Source Sink}

theorem CopyStep.hasSent (h : w.CopyStep t m phase' t') (hbuffer : 0 < w.bufferSize)
    (hprogress : w.phase.HasSent bytes sent t) : phase'.HasSent bytes (sent ++ w.puts m) t' := by
  cases h with
  | checks hphase | closes hphase =>
    rw [hphase] at hprogress
    show Phase.HasSent bytes (sent ++ []) t _
    rw [List.append_nil]
    exact hprogress
  | @reads job job' block count hphase htake =>
    rw [hphase] at hprogress
    obtain ⟨hbytes, htotal⟩ := hprogress
    obtain ⟨hrest, hend, hsame, -, -⟩ := takeBlock_eq_some hbuffer htake
    rw [hrest] at hbytes
    simp only [puts, List.append_nil]
    split
    next hnone =>
      have hbytes : bytes = sent := by simpa [hnone, hend hnone] using hbytes
      exact ⟨hbytes, by rw [hsame, htotal, hbytes]⟩
    next => exact ⟨hbytes, by rw [hsame, htotal]⟩
  | @writes job job' size count left t' hphase hcount hput =>
    have hputs : w.puts (.write count) = left.take count := by simp [puts, hphase]
    rw [hphase] at hprogress
    obtain ⟨hbytes, htotal⟩ := hprogress
    obtain ⟨hrest, hsame, -⟩ := putBytes_eq_some hput
    rw [hputs]
    -- The block counts once it is out; until then `left` and the count make up for it.
    split
    next hall =>
      rw [hall, List.take_length]
      refine ⟨?_, ?_⟩
      · rw [hbytes, ← List.append_assoc, ← hrest]
        rfl
      · simp only [hsame, htotal, List.length_append]
    next =>
      refine ⟨?_, ?_⟩
      · rw [hbytes, hrest, List.append_assoc, ← List.append_assoc (left.take count),
          List.take_append_drop]
      · simp only [hsame, htotal, List.length_append, List.length_take, List.length_drop]
        omega
  | records hphase =>
    rw [hphase] at hprogress
    obtain ⟨rfl, -⟩ := hprogress
    refine ⟨?_, fun _ => ?_⟩
    · simp [puts]
    · simp [puts]
  | stops hjob hreply hputs =>
    rw [hputs, List.append_nil]
    exact ⟨hprogress.sent_prefix, fun hcomplete => absurd hcomplete hreply⟩
  | winds hjob hputs hjob' hcopies hreply =>
    obtain ⟨hsent, hcomplete⟩ := (Phase.hasSent_of_ended hjob hprogress.copies).1 hprogress
    rw [hputs, List.append_nil, Phase.hasSent_of_ended hjob' hcopies]
    exact ⟨hsent, fun h => hcomplete (hreply _ h)⟩

theorem CopyStep.content?_eq {file : Option Nat} (h : w.CopyStep t m phase' t')
    (hbuffer : 0 < w.bufferSize)
    (hfile : ∀ job, w.phase.job? = some job → job.stream.content? = file)
    (hjob : phase'.job? = some job') : job'.stream.content? = file := by
  cases h with
  | checks hphase | closes hphase =>
    obtain rfl := Option.some.inj hjob
    exact hfile _ (by rw [hphase]; rfl)
  | reads hphase htake =>
    obtain ⟨-, -, -, -, hreadOn⟩ := takeBlock_eq_some hbuffer htake
    rw [← hfile _ (by rw [hphase]; rfl), ← hreadOn.content?_eq]
    split at hjob
    all_goals
      obtain rfl := Option.some.inj hjob
      rfl
  | writes hphase hcount hput =>
    obtain ⟨-, -, hsame⟩ := putBytes_eq_some hput
    rw [← hfile _ (by rw [hphase]; rfl), ← hsame]
    split at hjob
    all_goals
      obtain rfl := Option.some.inj hjob
      rfl
  | records | stops => cases hjob
  | winds _ _ hnone => cases hnone.symm.trans hjob

/-- Where no byte goes out and the stream stays the same, all stays where it landed. -/
theorem hasReceived_same (h : stream.HasReceived before sent t phase)
    (hjob : ∀ job', phase'.job? = some job' → ∃ job, phase.job? = some job ∧
      job'.delivered = job.delivered ∧ job.stream.ReadOn job'.stream) :
    stream.HasReceived before sent t phase' := by
  cases stream with
  | source origin =>
    intro job' hjob'
    obtain ⟨job, hold, hdelivered, hreadOn⟩ := hjob job' hjob'
    obtain ⟨⟨origin, hstream⟩, hsent⟩ := h job hold
    rw [hstream] at hreadOn
    cases hread : job'.stream with
    | source origin' => exact ⟨⟨origin', rfl⟩, hdelivered.trans hsent⟩
    | sink => rw [hread] at hreadOn; cases hreadOn
  | sink sink =>
    have hsink : ∀ {sink' : Sink} (job' : Job), phase'.job? = some job' →
        (∀ job, phase.job? = some job → job.stream = .sink sink') →
          job'.stream = .sink sink' := by
      intro sink' job' hjob' hall
      obtain ⟨job, hold, -, hreadOn⟩ := hjob job' hjob'
      rw [hall job hold] at hreadOn
      cases hread : job'.stream with
      | source => rw [hread] at hreadOn; cases hreadOn
      | sink => rw [hread] at hreadOn; cases hreadOn; rfl
    cases sink with
    | file k offset => exact ⟨h.1, fun job' hjob' => hsink job' hjob' h.2⟩
    | unwritable cause => exact ⟨h.1, fun job' hjob' => hsink job' hjob' h.2⟩

theorem hasReceived_put (h : stream.HasReceived before sent t phase)
    (hphase : phase.job? = some job) (hput : putBytes t chunk job = some (job', t'))
    (hjob : ∀ j, phase'.job? = some j → j.stream = job'.stream ∧ j.delivered = job'.delivered) :
    stream.HasReceived before (sent ++ chunk) t' phase' := by
  unfold putBytes at hput
  cases stream with
  | source origin =>
    obtain ⟨⟨origin', hstream⟩, hsent⟩ := h job hphase
    rw [hstream] at hput
    obtain ⟨rfl, -⟩ := Prod.mk.inj (Option.some.inj hput)
    intro j hj
    obtain ⟨hsame, hdelivered⟩ := hjob j hj
    exact ⟨⟨origin', hsame⟩, by rw [hdelivered, ← hsent]⟩
  | sink sink =>
    cases sink with
    | file k offset =>
      obtain ⟨⟨hlt, hbytes⟩, hstream⟩ := h
      rw [hstream job hphase] at hput
      obtain ⟨rfl, rfl⟩ := Prod.mk.inj (Option.some.inj hput)
      have hcontent :=
        Tree.content_setContent (c := (t.content k).write (t.content k).size chunk) hlt
      have hwrite := (t.content k).toBytes_write chunk
      refine ⟨⟨by simpa [Tree.setContent] using hlt, ?_⟩, fun j hj => ?_⟩
      · rw [hcontent, hwrite, hbytes, List.append_assoc]
      · -- The next chunk goes to the end of the file as it is now.
        rw [(hjob j hj).1, hcontent, ← Content.length_toBytes (Content.write ..), hwrite,
          List.length_append, Content.length_toBytes]
    | unwritable cause =>
      obtain ⟨hnone, hstream⟩ := h
      rw [hstream job hphase] at hput
      dsimp only at hput
      split at hput
      next hwrite =>
        obtain ⟨rfl, rfl, rfl⟩ := Tree.writeSink_unwritable hwrite
        obtain ⟨rfl, -⟩ := Prod.mk.inj (Option.some.inj hput)
        exact ⟨by simp [hnone], fun j hj => (hjob j hj).1⟩
      next => cases hput

theorem CopyStep.hasReceived (h : w.CopyStep t m phase' t') (hbuffer : 0 < w.bufferSize)
    (hreceived : stream.HasReceived before sent t w.phase) :
    stream.HasReceived before (sent ++ w.puts m) t' phase' := by
  cases h with
  | @checks job hphase | @closes job hphase =>
    show stream.HasReceived before (sent ++ []) t _
    rw [List.append_nil]
    refine hasReceived_same hreceived fun job' hjob' => ?_
    obtain rfl := Option.some.inj hjob'
    exact ⟨job, by rw [hphase]; rfl, rfl, .refl _⟩
  | @reads job job' block count hphase htake =>
    show stream.HasReceived before (sent ++ []) t _
    rw [List.append_nil]
    obtain ⟨-, -, -, hdelivered, hreadOn⟩ := takeBlock_eq_some hbuffer htake
    refine hasReceived_same hreceived fun j hj => ⟨job, by rw [hphase]; rfl, ?_⟩
    split at hj
    all_goals
      obtain rfl := Option.some.inj hj
      exact ⟨hdelivered, hreadOn⟩
  | @writes job job' size count left t' hphase hcount hput =>
    have hputs : w.puts (.write count) = left.take count := by simp [puts, hphase]
    rw [hputs]
    refine hasReceived_put hreceived (by rw [hphase]; rfl) hput fun j hj => ?_
    split at hj
    all_goals
      obtain rfl := Option.some.inj hj
      exact ⟨rfl, rfl⟩
  | records hphase =>
    show stream.HasReceived before (sent ++ []) t _
    rw [List.append_nil]
    exact hasReceived_same hreceived fun job' hjob' => by cases hjob'
  | stops _ _ hputs =>
    rw [hputs, List.append_nil]
    exact hasReceived_same hreceived fun job' hjob' => by cases hjob'
  | winds _ hputs hnone =>
    rw [hputs, List.append_nil]
    exact hasReceived_same hreceived fun job' hjob' => by cases hnone.symm.trans hjob'

end Worker

end FtpServer
