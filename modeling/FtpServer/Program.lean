/-!
# Programs that ask

A program is done, or asks for something outside itself and goes on with the answer.  `A q` is the
type of the answers to the question `q`.  Who answers, and what else happens between two
questions, is not the program's business.
-/

namespace FtpServer

inductive Program {Q : Type} (A : Q → Type) (α : Type)
  | done (a : α)
  | ask (q : Q) (next : A q → Program A α)

namespace Program

variable {Q : Type} {A : Q → Type} {α β γ : Type}

def bind : Program A α → (α → Program A β) → Program A β
  | done a, f => f a
  | ask q next, f => ask q fun r => (next r).bind f

instance : Monad (Program A) where
  pure := done
  bind := bind

@[simp] theorem pure_eq (a : α) : (pure a : Program A α) = done a := rfl

@[simp] theorem done_bind (a : α) (f : α → Program A β) : done a >>= f = f a := rfl

@[simp] theorem ask_bind (q : Q) (next : A q → Program A α) (f : α → Program A β) :
    ask q next >>= f = ask q fun r => next r >>= f := rfl

theorem bind_assoc (p : Program A α) (f : α → Program A β) (g : β → Program A γ) :
    p >>= f >>= g = p >>= fun a => f a >>= g := by
  induction p with
  | done => rfl
  | ask q next ih => simp [ih]

/-- Every question that the program may come to ask satisfies `P`. -/
def Asks (P : Q → Prop) : Program A α → Prop
  | done _ => True
  | ask q next => P q ∧ ∀ r, (next r).Asks P

theorem asks_bind {P : Q → Prop} {p : Program A α} {f : α → Program A β}
    (hp : p.Asks P) (hf : ∀ a, (f a).Asks P) : (p >>= f).Asks P := by
  induction p with
  | done a => exact hf a
  | ask q next ih => exact ⟨hp.1, fun r => ih r (hp.2 r)⟩

/-- The run of a program whose questions are answered one after the other from a state. -/
def run {S : Type} (answer : (q : Q) → S → A q × S) : Program A α → S → α × S
  | done a, s => (a, s)
  | ask q next, s => (next (answer q s).1).run answer (answer q s).2

@[simp] theorem run_done {S : Type} (answer : (q : Q) → S → A q × S) (a : α) (s : S) :
    (done a : Program A α).run answer s = (a, s) := rfl

@[simp] theorem run_ask {S : Type} (answer : (q : Q) → S → A q × S) (q : Q)
    (next : A q → Program A α) (s : S) :
    (ask q next).run answer s = (next (answer q s).1).run answer (answer q s).2 := rfl

/-- The run of a program whose questions are answered in `m`. -/
def interpret {m : Type → Type} [Monad m] (answer : (q : Q) → m (A q)) : Program A α → m α
  | done a => pure a
  | ask q next => do (next (← answer q)).interpret answer

end Program

end FtpServer
