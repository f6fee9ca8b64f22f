import FtpServer.Proofs.Trace

/-!
# What a program asked and was told

A transcript is the list of the questions of a program with their answers.  What every transcript of
a program says is put together from what the transcripts of its parts say, and a run leaves a
transcript behind, whoever else was at work meanwhile.
-/

namespace FtpServer

namespace Program

variable {Q : Type} {A : Q → Type} {α β : Type}

abbrev Transcript (A : Q → Type) := List ((q : Q) × A q)

/-- With these answers the program comes to the rest of it. -/
inductive Goes : Program A α → Transcript A → Program A α → Prop
  | refl (p : Program A α) : Goes p [] p
  | ask {q : Q} {next : A q → Program A α} {r : A q} {l : Transcript A} {p : Program A α} :
      Goes (next r) l p → Goes (.ask q next) (⟨q, r⟩ :: l) p

/-- However the questions are answered, the transcript and the result satisfy `post`. -/
def Yields (post : Transcript A → α → Prop) : Program A α → Prop
  | done a => post [] a
  | ask q next => ∀ r, (next r).Yields fun l a => post (⟨q, r⟩ :: l) a

variable {p p' p'' : Program A α} {f : α → Program A β} {l l' : Transcript A} {a : α}
variable {post post' : Transcript A → α → Prop}

@[simp] theorem yields_done (a : α) : (done a : Program A α).Yields post ↔ post [] a := Iff.rfl

theorem yields_ask (q : Q) (next : A q → Program A α) :
    (ask q next).Yields post ↔ ∀ r, (next r).Yields fun l a => post (⟨q, r⟩ :: l) a := Iff.rfl

theorem Yields.mono (h : p.Yields post) (hpost : ∀ l a, post l a → post' l a) : p.Yields post' := by
  induction p generalizing post post' with
  | done a => exact hpost [] a h
  | ask q next ih => exact fun r => ih r (h r) fun l a => hpost (⟨q, r⟩ :: l) a

theorem yields_bind (p : Program A α) (f : α → Program A β) {post : Transcript A → β → Prop} :
    (p >>= f).Yields post ↔ p.Yields fun l a => (f a).Yields fun l' b => post (l ++ l') b := by
  induction p generalizing post with
  | done a => rfl
  | ask q next ih => simp only [ask_bind, yields_ask, ih, List.cons_append]

theorem Yields.bind {post' : Transcript A → β → Prop} (hp : p.Yields post)
    (hf : ∀ l a, post l a → (f a).Yields fun l' b => post' (l ++ l') b) : (p >>= f).Yields post' :=
  (yields_bind p f).2 (hp.mono hf)

theorem Yields.question {q : Q} {f : A q → Program A α}
    (hf : ∀ r, (f r).Yields fun l a => post (⟨q, r⟩ :: l) a) : (ask q done >>= f).Yields post := hf

theorem Yields.any (p : Program A α) : p.Yields fun _ _ => True := by
  induction p with
  | done a => trivial
  | ask q next ih => exact fun r => ih r

theorem Yields.and (h : p.Yields post) (h' : p.Yields post') :
    p.Yields fun l a => post l a ∧ post' l a := by
  induction p generalizing post post' with
  | done a => exact ⟨h, h'⟩
  | ask q next ih => exact fun r => ih r (h r) (h' r)

theorem Keeps.yields {guard : Q → Prop} {φ : α → Prop}
    (h : p.Keeps (fun _ _ => True) guard φ) : p.Yields fun l a => (∀ x ∈ l, guard x.1) ∧ φ a := by
  induction p with
  | done a => exact ⟨by simp, h⟩
  | ask q next ih =>
    obtain ⟨hguard, hnext⟩ := (keeps_ask q next).1 h
    refine fun r => (ih r (hnext r trivial)).mono fun l a hl => ⟨fun x hx => ?_, hl.2⟩
    rcases List.mem_cons.1 hx with rfl | hx
    · exact hguard
    · exact hl.1 x hx

theorem Yields.of_goes (h : p.Yields post) (hgoes : p.Goes l (.done a)) : post l a := by
  generalize hend : (done a : Program A α) = p' at hgoes
  induction hgoes generalizing post with
  | refl => subst hend; exact h
  | ask _ ih => exact ih (h _) hend

theorem Goes.snoc {q : Q} {next : A q → Program A α} (h : p.Goes l (.ask q next)) (r : A q) :
    p.Goes (l ++ [⟨q, r⟩]) (next r) := by
  generalize hend : Program.ask q next = p' at h
  induction h with
  | refl => subst hend; exact .ask (.refl _)
  | ask _ ih => exact .ask (ih hend)

theorem Goes.trans (h : p.Goes l p') (h' : p'.Goes l' p'') : p.Goes (l ++ l') p'' := by
  induction h with
  | refl => exact h'
  | ask _ ih => exact .ask (ih h')

/-- A program that has begun can end, with answers of any kind that are always possible. -/
theorem Goes.ends {allowed : (q : Q) → A q → Prop} (hallowed : ∀ q, ∃ r, allowed q r)
    (p : Program A α) : ∃ l a, p.Goes l (.done a) ∧ ∀ x ∈ l, allowed x.1 x.2 := by
  induction p with
  | done a => exact ⟨[], a, .refl _, by simp⟩
  | ask q next ih =>
    obtain ⟨r, hr⟩ := hallowed q
    obtain ⟨l, a, hgoes, hl⟩ := ih r
    refine ⟨⟨q, r⟩ :: l, a, .ask hgoes, fun x hx => ?_⟩
    rcases List.mem_cons.1 hx with rfl | hx
    · exact hr
    · exact hl x hx

end Program

namespace Scene

open Program

variable {α β : Type} {p p' : Dialogue α} {s s' : Scene} {τ τ' : List Event}

def said (τ : List Event) : Transcript Request.Answer :=
  τ.filterMap fun
    | .asked q r => some ⟨q, r⟩
    | .moved _ _ | .passed _ => none

@[simp] theorem said_nil : said [] = [] := rfl

@[simp] theorem said_append (τ τ' : List Event) : said (τ ++ τ') = said τ ++ said τ' :=
  List.filterMap_append

@[simp] theorem said_asked (q : Request) (r : q.Answer) (τ : List Event) :
    said (.asked q r :: τ) = ⟨q, r⟩ :: said τ := rfl

theorem mem_said {q : Request} {r : q.Answer} : ⟨q, r⟩ ∈ said τ ↔ .asked q r ∈ τ := by
  rw [said, List.mem_filterMap]
  constructor
  · rintro ⟨e, he, hsome⟩
    cases e with
    | asked q' r' => cases hsome; exact he
    | _ => cases hsome
  · exact fun h => ⟨_, h, rfl⟩

theorem Traced.goes (h : Traced (p, s) τ (p', s')) : p.Goes (said τ) p' := by
  generalize hb : (p', s') = b at h
  induction h generalizing p' s' with
  | refl =>
    obtain ⟨rfl, rfl⟩ := Prod.mk.inj hb
    exact .refl _
  | tail _ htells ih =>
    subst hb
    rw [said_append]
    cases htells with
    | session => exact (ih rfl).snoc _
    | worker | time =>
      rw [show said [_] = [] from rfl, List.append_nil]
      exact ih rfl

theorem Traced.of_done {a : α} (h : Traced (.done a, s) τ (p', s')) : p' = .done a := by
  generalize hb : (p', s') = b at h
  induction h generalizing p' s' with
  | refl => exact (Prod.mk.inj hb).1
  | tail _ htells ih =>
    subst hb
    cases htells with
    | session => cases ih rfl
    | worker | time => exact ih rfl

/-- What moves beside a program that is done would move beside any other. -/
theorem Traced.beside {a : α} (h : Traced (.done a, s) τ (p', s')) (p : Dialogue β) :
    Traced (p, s) τ (p, s') := by
  generalize hb : (p', s') = b at h
  induction h generalizing p' s' with
  | refl =>
    obtain ⟨rfl, rfl⟩ := Prod.mk.inj hb
    exact .refl _
  | tail hbefore htells ih =>
    subst hb
    cases htells with
    | session => cases hbefore.of_done
    | worker number m hmove => exact (ih rfl).tail (.worker number m hmove)
    | time ms => exact (ih rfl).tail (.time ms)

/-- A run of two programs one after the other is still in the first one, or ended it and went on to
the second one. -/
theorem Traced.of_bind {f : α → Dialogue β} {b : Dialogue β} (h : Traced (p >>= f, s) τ (b, s')) :
    (∃ q next, b = .ask q (fun r => next r >>= f) ∧ Traced (p, s) τ (.ask q next, s')) ∨
      ∃ a s₁ τ₁ τ₂, τ = τ₁ ++ τ₂ ∧ Traced (p, s) τ₁ (.done a, s₁) ∧ Traced (f a, s₁) τ₂ (b, s') := by
  have hsplit : (∃ p', b = p' >>= f ∧ Traced (p, s) τ (p', s')) ∨
      ∃ a s₁ τ₁ τ₂, τ = τ₁ ++ τ₂ ∧ Traced (p, s) τ₁ (.done a, s₁) ∧
        Traced (f a, s₁) τ₂ (b, s') := by
    generalize hb : (b, s') = c at h
    induction h generalizing b s' with
    | refl =>
      obtain ⟨rfl, rfl⟩ := Prod.mk.inj hb
      exact .inl ⟨p, rfl, .refl _⟩
    | @tail m _ τ e hm htells ih =>
      subst hb
      rcases ih (Prod.eta m) with
        ⟨p', hp', hfirst⟩ | ⟨a, s₁, τ₁, τ₂, rfl, hfirst, hrest⟩
      · cases p' with
        | done a =>
          refine .inr ⟨a, m.2, τ, [e], rfl, hfirst, .tail (τ := []) (.refl _) ?_⟩
          rwa [show (f a, m.2) = m from Prod.ext hp'.symm rfl]
        | ask q next =>
          rw [show m = (.ask q fun r => next r >>= f, m.2) from Prod.ext hp' rfl] at htells
          cases htells with
          | session hanswer => exact .inl ⟨_, rfl, hfirst.tail (.session hanswer)⟩
          | worker number move hmove => exact .inl ⟨_, rfl, hfirst.tail (.worker number move hmove)⟩
          | time ms => exact .inl ⟨_, rfl, hfirst.tail (.time ms)⟩
      · exact .inr ⟨a, s₁, τ₁, τ₂ ++ [e], by rw [List.append_assoc], hfirst, hrest.tail htells⟩
  rcases hsplit with ⟨p', rfl, hfirst⟩ | hrest
  · cases p' with
    | done a => exact .inr ⟨a, s', τ, [], by simp, hfirst, .refl _⟩
    | ask q next => exact .inl ⟨q, next, rfl, hfirst⟩
  · exact .inr hrest

end Scene

end FtpServer
