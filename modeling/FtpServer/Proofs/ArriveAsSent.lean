import FtpServer.Proofs.UndisturbedCopies
import FtpServer.Proofs.Replay

/-!
# Transfers that arrive as they were sent

What a client stores is what it gets back later, and a list is sent as it was made.
-/

namespace FtpServer

open Program Dialogue Text

def Request.isNote : Request → Bool
  | .note _ => true
  | _ => false

namespace Scene

variable {s s' : Scene} {n : Nat} {m : Worker.Move}

theorem numbered_of_moveWorker (h : s.shared.tree.Numbered) (hmove : s.moveWorker? n m = some s') :
    s'.shared.tree.Numbered := by
  obtain ⟨w, w', -, hmoved, -⟩ := workers_of_moveWorker hmove
  obtain ⟨contents, hlength, htree⟩ := Worker.tree_of_move hmoved
  rw [htree]
  exact h.setContents (Nat.le_of_eq hlength.symm)

theorem numbered_of_perform {q : Request} {r : q.Answer} (h : s.shared.tree.Numbered)
    (hanswer : s.perform? q = some (r, s')) : s'.shared.tree.Numbered := by
  cases q with
  | file call =>
    obtain rfl : (s.performFile call).2 = s' := congrArg Prod.snd (Option.some.inj hanswer)
    exact h.perform _ _
  | _ =>
    rw [(frame_of_perform hanswer).2 (by simp)]
    exact h

/-- How things were right after the last question but notes.  Before each question anything may
happen, as long as every file has a content. -/
def opening : Rules Request.Answer Scene where
  drift s t := t = s
  answer q s r u := q.isNote = true ∧ u = s ∨
    q.isNote = false ∧ ∃ t : Scene, t.shared.tree.Numbered ∧ t.perform? q = some (r, u)
  guard _ _ := True

theorem Steps.opens {α : Type} {p p' : Dialogue α} {post : α → Scene → Prop}
    (h : Steps (p, s) (p', s')) (hs : s.shared.tree.Numbered) (hp : p.Meets opening post s) :
    s'.shared.tree.Numbered ∧ ∃ t, p'.Meets opening post t := by
  generalize hb : (p', s') = b at h
  induction h generalizing p' s' with
  | refl =>
    obtain ⟨rfl, rfl⟩ := Prod.mk.inj hb
    exact ⟨hs, s', hp⟩
  | tail _ hstep ih =>
    subst hb
    obtain ⟨hnumbered, t, hrest⟩ := ih rfl
    cases hstep with
    | @session q _ s₁ _ r hanswer =>
      obtain ⟨-, hnext⟩ := hrest t rfl
      refine ⟨numbered_of_perform hnumbered hanswer, ?_⟩
      cases hnote : q.isNote with
      | true => exact ⟨t, hnext r t (.inl ⟨hnote, rfl⟩)⟩
      | false => exact ⟨s', hnext r s' (.inr ⟨hnote, s₁, hnumbered, hanswer⟩)⟩
    | worker _ _ hmove => exact ⟨numbered_of_moveWorker hnumbered hmove, t, hrest⟩
    | time => exact ⟨hnumbered, t, hrest⟩

end Scene

namespace Session

open Scene

variable {ctx : Context} {c c' : Client} {s : Scene} {root argument verb : String} {path : Path}
variable {P : Transfer → Scene → Prop} {transfer : Transfer} {e : StorageError}

/-- What holds right after the last question of a dialogue but notes, on a host where every file has
a content. -/
def Opening {α : Type} (post : α → Scene → Prop) (p : Dialogue α) : Prop :=
  ∀ s, s.shared.tree.Numbered → p.Meets opening post s

theorem Opening.question {α : Type} {post : α → Scene → Prop} {q : Request}
    {f : q.Answer → Dialogue α} (hq : q.isNote = false)
    (h : ∀ (t : Scene) (r : q.Answer) (u : Scene), t.shared.tree.Numbered →
      t.perform? q = some (r, u) → (f r).Meets opening post u) :
    Opening post (ask q done >>= f) := by
  rintro s hs _ rfl
  refine ⟨trivial, fun r u hanswer => ?_⟩
  rcases hanswer with ⟨hnote, -⟩ | ⟨-, t, ht, hanswer⟩
  · cases hq.symm.trans hnote
  · exact h t r u ht hanswer

theorem meets_note {α : Type} {post : α → Scene → Prop} {record : Record} {f : Unit → Dialogue α}
    (h : (f ()).Meets opening post s) : (note record >>= f).Meets opening post s := by
  rintro _ rfl
  refine ⟨trivial, fun r u hanswer => ?_⟩
  rcases hanswer with ⟨-, rfl⟩ | ⟨hnote, -⟩
  · exact h
  · cases hnote

theorem Opening.step {α : Type} {post : α → Scene → Prop} {q : Request}
    {f : q.Answer → Dialogue α} (h : ∀ r, Opening post (f r)) : Opening post (ask q done >>= f) := by
  rintro s hs _ rfl
  refine ⟨trivial, fun r u hanswer => h r u ?_⟩
  rcases hanswer with ⟨-, rfl⟩ | ⟨-, t, ht, hanswer⟩
  · exact hs
  · exact numbered_of_perform ht hanswer

abbrev BeginsWith (P : Transfer → Scene → Prop) : Step → Prop :=
  Opening fun r s => ∀ transfer, r.2.transfer = some transfer → P transfer s

theorem beginsWith_none {o : Outcome} (ho : o.transfer = none) :
    BeginsWith P (.done (c, o)) := fun _ _ transfer htransfer => by
  cases ho.symm.trans htransfer

theorem refuse_begins : BeginsWith P (refuse c verb e) := .step fun _ => beginsWith_none rfl

theorem refuseCreation_begins : BeginsWith P (refuseCreation c verb e) :=
  .step fun _ => beginsWith_none rfl

theorem withData_begins {command : Client → Step}
    (h : ∀ c', c'.directory = c.directory → BeginsWith P (command c')) :
    BeginsWith P (withData c command) := by
  have hgate : ∀ c', c'.directory = c.directory → BeginsWith P (isInProgress >>= fun busy =>
      if busy then note (.transferIgnored c'.address) >>= fun _ => return (c', .ignored)
      else if c'.dataMode = .none then
        return (c', .failure Reply.cannotOpenData "Use PORT or PASV first.")
      else command c') := fun c' hc' => .step fun busy => by
    split
    next => exact .step fun _ => beginsWith_none rfl
    next =>
      split
      next => exact beginsWith_none rfl
      next => exact h c' hc'
  refine Opening.step fun holds => ?_
  cases holds with
  | false => exact hgate c rfl
  | true =>
    refine Opening.step fun armed => ?_
    cases armed with
    | true => exact hgate c rfl
    | false => exact Opening.step fun _ => hgate (c.withMode .none) rfl

/-- The host's end of an upload was just opened at a place, and what was there made empty. -/
inductive OpensSink (p : Place) : Transfer → Scene → Prop
  | file {k : Nat} {s : Scene} (hnames : s.shared.tree.openFile p = .ok (some k))
      (hempty : s.shared.tree.contents[k]? = some .empty) :
      OpensSink p ⟨.receiveFile, some (.sink (.file k 0))⟩ s
  | other {s : Scene} (hnames : s.shared.tree.openFile p = .ok none) :
      OpensSink p ⟨.receiveFile, some (.sink (.unwritable .noSpace))⟩ s

theorem beginStor_begins (hc : c'.directory = c.directory) :
    BeginsWith (fun transfer s => ∃ path, c.directory.resolve argument = some path ∧
      OpensSink (path.place ctx.root) transfer s) (beginStor ctx argument c') := by
  unfold beginStor
  rw [hc]
  split
  next => exact refuseCreation_begins
  next path hpath =>
    unfold Storage.openUpload
    split
    next => exact refuseCreation_begins
    next =>
      refine Opening.question rfl fun t r u ht hanswer => ?_
      have hopen : t.shared.tree.openSink (path.place ctx.root) = (r, u.shared.tree) := by
        obtain ⟨rfl, rfl⟩ := Prod.mk.inj (Option.some.inj hanswer)
        rfl
      cases r with
      | error cause => exact refuseCreation_begins u (numbered_of_perform ht hanswer)
      | ok sink =>
        refine meets_note fun transfer htransfer => ?_
        obtain rfl := Option.some.inj htransfer
        refine ⟨path, hpath, ?_⟩
        obtain ⟨k, rfl, hnames, hempty⟩ | ⟨rfl, hnames⟩ := Tree.openSink_eq_ok ht hopen
        · exact .file hnames hempty
        · exact .other hnames

def OpensSource (p : Place) (transfer : Transfer) (s : Scene) : Prop :=
  ∃ source, transfer = ⟨.sendFile, some (.source source)⟩ ∧
    s.shared.tree.openSource p = .ok source ∧ s.shared.tree.Numbered

theorem beginRetr_begins (hc : c'.directory = c.directory) :
    BeginsWith (fun transfer s => ∃ path, c.directory.resolve argument = some path ∧
      OpensSource (path.place ctx.root) transfer s) (beginRetr ctx argument c') := by
  unfold beginRetr
  rw [hc]
  split
  next => exact refuse_begins
  next path hpath =>
    refine Opening.step fun look => ?_
    cases look with
    | error cause => exact refuse_begins
    | ok kind =>
      show BeginsWith _ (ofFiles (if Storage.isFile kind then _ else _) >>= _)
      split
      next =>
        refine Opening.question rfl fun t r u ht hanswer => ?_
        have hu := numbered_of_perform ht hanswer
        have hopen : u.shared.tree.openSource (path.place ctx.root) = r := by
          obtain ⟨rfl, rfl⟩ := Prod.mk.inj (Option.some.inj hanswer)
          rfl
        cases r with
        | error cause => exact refuse_begins u hu
        | ok source =>
          refine meets_note fun transfer htransfer => ?_
          obtain rfl := Option.some.inj htransfer
          exact ⟨path, hpath, source, rfl, hopen, hu⟩
      next => exact refuse_begins

def Lists (p : Place) (transfer : Transfer) (s : Scene) : Prop :=
  ∃ listing, transfer = ⟨.sendListing, some (.source (.bytes listing))⟩ ∧ s.list p = .ok listing

theorem beginList_begins (hc : c'.directory = c.directory) :
    BeginsWith (fun transfer s => ∃ path, listTarget c argument = some path ∧
      Lists (path.place ctx.root) transfer s) (beginList ctx argument c') := by
  have htarget : listTarget c' argument = listTarget c argument := by simp [listTarget, hc]
  unfold beginList
  rw [htarget]
  split
  next => exact refuse_begins
  next path hpath =>
    refine Opening.step fun look => ?_
    cases look with
    | error cause => exact refuse_begins
    | ok kind =>
      refine Opening.question rfl fun t r u ht hanswer => ?_
      have hlist : u.list (path.place ctx.root) = r := by
        obtain ⟨rfl, rfl⟩ := Prod.mk.inj (Option.some.inj hanswer)
        rfl
      cases r with
      | error cause => exact refuse_begins u (numbered_of_perform ht hanswer)
      | ok listing =>
        intro transfer htransfer
        obtain rfl := Option.some.inj htransfer
        exact ⟨path, hpath, listing, rfl, hlist⟩

inductive ComesTo {α : Type} (a : α) : Dialogue α → Prop
  | done : ComesTo a (.done a)
  | note {record : Record} {next : Unit → Dialogue α} (h : ComesTo a (next ())) :
      ComesTo a (.ask (.note record) next)

theorem ComesTo.post {α : Type} {post : α → Scene → Prop} {a : α} {p : Dialogue α}
    (h : ComesTo a p) (hp : p.Meets opening post s) : post a s := by
  induction h with
  | done => exact hp
  | note _ ih => exact ih ((hp s rfl).2 () s (.inl ⟨rfl, rfl⟩))

/-- The command, wherever it was begun, has just got the answer to its last question but notes, and
the transfer is to begin. -/
def Begins (ctx : Context) (c : Client) (command : Command) (transfer : Transfer) (s : Scene) :
    Prop :=
  ∃ (s₀ s₁ : Scene) (q : Request) (next : q.Answer → Step) (r : q.Answer) (c' : Client)
    (o : Outcome), s₀.shared.tree.Numbered ∧
    Steps (handle ctx c command, s₀) (.ask q next, s₁) ∧ q.isNote = false ∧
    s₁.perform? q = some (r, s) ∧ ComesTo (c', o) (next r) ∧ o.transfer = some transfer

theorem Begins.holds {command : Command} (h : Begins ctx c command transfer s)
    (hp : BeginsWith P (dispatch ctx c command)) : P transfer s := by
  obtain ⟨s₀, s₁, q, next, r, c', o, hs₀, hsteps, hnote, hanswer, hcomes, htransfer⟩ := h
  have hhandle : BeginsWith P (handle ctx c command) := by
    unfold handle
    split
    next => exact beginsWith_none rfl
    next => exact hp
  obtain ⟨hs₁, t, hrest⟩ := hsteps.opens hs₀ (hhandle s₀ hs₀)
  obtain ⟨-, hnext⟩ := hrest t rfl
  have hlast := hnext r s (.inr ⟨hnote, s₁, hs₁, hanswer⟩)
  exact hcomes.post hlast transfer htransfer

theorem Begins.stor (h : Begins ctx c (.stor argument) transfer s) :
    ∃ path, c.directory.resolve argument = some path ∧
      OpensSink (path.place ctx.root) transfer s :=
  h.holds (withData_begins fun _ => beginStor_begins)

theorem Begins.retr (h : Begins ctx c (.retr argument) transfer s) :
    ∃ path, c.directory.resolve argument = some path ∧
      OpensSource (path.place ctx.root) transfer s :=
  h.holds (withData_begins fun _ => beginRetr_begins)

theorem Begins.list (h : Begins ctx c (.list argument) transfer s) :
    ∃ path, listTarget c argument = some path ∧ Lists (path.place ctx.root) transfer s :=
  h.holds (withData_begins fun _ => beginList_begins)

end Session

namespace Scene

/-- What worker `n` passes on in moves that nobody disturbs. -/
def carry? (n : Nat) : List Worker.Move → Scene → Option (Bytes × Scene)
  | [], s => some ([], s)
  | m :: rest, s =>
    match s.workers[n]?, s.moveWorker? n m with
    | some w, some t => (carry? n rest t).map fun (sent, u) => (w.puts m ++ sent, u)
    | _, _ => none

variable {s s' t : Scene} {n : Nat} {file : Option Nat} {sent more : Bytes}
variable {moves : List Worker.Move}

theorem Carries.append (h : s.Carries n file sent t)
    (hcarry : t.carry? n moves = some (more, s')) : s.Carries n file (sent ++ more) s' := by
  induction moves generalizing t sent more with
  | nil =>
    obtain ⟨rfl, rfl⟩ := Prod.mk.inj (Option.some.inj hcarry)
    rw [List.append_nil]
    exact h
  | cons m rest ih =>
    simp only [carry?] at hcarry
    split at hcarry
    next w u hw hmove =>
      obtain ⟨⟨rest', v⟩, hrest, heq⟩ := Option.map_eq_some_iff.1 hcarry
      obtain ⟨rfl, rfl⟩ := Prod.mk.inj heq
      rw [← List.append_assoc]
      exact ih (h.move hw hmove) hrest
    next => cases hcarry

end Scene

namespace Session

open Scene

/-- Blocks of two bytes, of which the last comes short and goes out in two pieces. -/
def storing : List Worker.Move :=
  [.check, .read 2, .write 2, .check, .read 1, .write 1, .check, .read 2, .write 1, .write 1, .check,
    .read 0, .close, .record, .lock, .release]

end Session

end FtpServer
