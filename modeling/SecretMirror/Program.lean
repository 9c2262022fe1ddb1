/-!
# Programs that ask their surroundings

A `Signature` lists the requests a program may make and the type of the answer to each.  A `Program`
is a finite tree of requests: it is either finished, with a value or an error, or it asks one
request and goes on from the answer, which may itself be an error.  Nothing is said here about who
answers, so one and the same program can be run against a simulated world, against an arbitrary
adversary, or one request at a time next to other programs.

* `Program.outcome` goes on from a finished program whether it failed or not, so it expresses both
  recovery from an error and clean-up after it; `Program.bind` goes on after success only.
* `Program.recover` and `Program.always` are the two common uses of `outcome`.
* `Program.run` lets a stateful handler answer the requests.
* `Program.interpret` answers the requests of one signature by programs over another.

The main small lemmas say that `run` and `interpret` respect `outcome` and `bind` (`run_outcome`,
`run_bind`, `interpret_outcome`, `run_interpret`).
-/

namespace SecretMirror

/-- The requests a program may make, and the type of answer that each has. -/
structure Signature where
  /-- What may be asked. -/
  Request : Type
  /-- What a successful answer to a request is. -/
  Answer : Request → Type

/-- A computation that asks requests of `σ`, fails with errors in `ε` and returns values in `α`.  It
is a finite tree, so what holds of all programs is proved by induction on it. -/
inductive Program (σ : Signature) (ε α : Type) where
  /-- Finished, with a value or an error. -/
  | done (result : Except ε α)
  /-- Asks one request and goes on from its answer, which may be an error. -/
  | ask (request : σ.Request) (next : Except ε (σ.Answer request) → Program σ ε α)

namespace Program

variable {σ υ : Signature} {ε α β γ S : Type}

/-- Goes on from the result of a finished program, be it a value or an error. -/
def outcome : Program σ ε α → (Except ε α → Program σ ε β) → Program σ ε β
  | .done r, f => f r
  | .ask q next, f => .ask q fun a => (next a).outcome f

/-- What remains to be done after a result: an error is passed on, a value goes to `f`. -/
def resume (f : α → Program σ ε β) : Except ε α → Program σ ε β
  | .ok a => f a
  | .error e => .done (.error e)

/-- Goes on from the value of a program; an error ends the whole.  Handling an error is left to
`Program.recover`. -/
def bind (p : Program σ ε α) (f : α → Program σ ε β) : Program σ ε β :=
  p.outcome (resume f)

instance : Monad (Program σ ε) where
  pure a := .done (.ok a)
  bind := bind

def fail (e : ε) : Program σ ε α := .done (.error e)

/-- A result that was computed without asking anything. -/
def ofExcept (r : Except ε α) : Program σ ε α := .done r

/-- Goes on with `handler` after an error.  The handler may fail too, and then its error is the one
that counts. -/
def recover (p : Program σ ε α) (handler : ε → Program σ ε α) : Program σ ε α :=
  p.outcome fun
    | .ok a => .done (.ok a)
    | .error e => handler e

/-- Does `cleanup` after a program, whether it failed or not.  The result is that of the program,
unless the clean-up itself fails. -/
def always (p : Program σ ε α) (cleanup : Program σ ε Unit) : Program σ ε α :=
  p.outcome fun r => cleanup.bind fun _ => .done r

/-- Asks one request; an error in the answer is passed on. -/
def request (q : σ.Request) : Program σ ε (σ.Answer q) := .ask q .done

/-- Runs a program whose requests are answered by a handler with a state.  An error in an answer
reaches the program, which may recover from it. -/
def run (handle : (q : σ.Request) → S → Except ε (σ.Answer q) × S) :
    Program σ ε α → S → Except ε α × S
  | .done r, s => (r, s)
  | .ask q next, s =>
    let (a, t) := handle q s
    (next a).run handle t

/-- Answers every request of a program by a program over another signature.  An error of that
program is the answer to the request, so it can be recovered from as such. -/
def interpret (f : (q : σ.Request) → Program υ ε (σ.Answer q)) :
    Program σ ε α → Program υ ε α
  | .done r => .done r
  | .ask q next => (f q).outcome fun a => (next a).interpret f

/-! ## How the operations fit together -/

@[simp] theorem outcome_done (r : Except ε α) (f : Except ε α → Program σ ε β) :
    (done r).outcome f = f r := rfl

@[simp] theorem outcome_ask (q : σ.Request) (next : Except ε (σ.Answer q) → Program σ ε α)
    (f : Except ε α → Program σ ε β) :
    (ask q next).outcome f = ask q fun a => (next a).outcome f := rfl

@[simp] theorem resume_ok (f : α → Program σ ε β) (a : α) : resume f (.ok a) = f a := rfl

@[simp] theorem resume_error (f : α → Program σ ε β) (e : ε) :
    resume f (.error e) = done (.error e) := rfl

theorem bind_eq_outcome (p : Program σ ε α) (f : α → Program σ ε β) :
    (p >>= f) = p.outcome (resume f) := rfl

theorem outcome_assoc (p : Program σ ε α) (f : Except ε α → Program σ ε β)
    (g : Except ε β → Program σ ε γ) :
    (p.outcome f).outcome g = p.outcome fun r => (f r).outcome g := by
  induction p with
  | done r => rfl
  | ask q next ih => simp [ih]

@[simp] theorem run_done (handle : (q : σ.Request) → S → Except ε (σ.Answer q) × S)
    (r : Except ε α) (s : S) : (done r).run handle s = (r, s) := rfl

@[simp] theorem run_ask (handle : (q : σ.Request) → S → Except ε (σ.Answer q) × S)
    (q : σ.Request) (next : Except ε (σ.Answer q) → Program σ ε α) (s : S) :
    (ask q next).run handle s = (next (handle q s).1).run handle (handle q s).2 := rfl

/-- Running a continued program is running the first part and then, from where it left the state,
the second. -/
theorem run_outcome (handle : (q : σ.Request) → S → Except ε (σ.Answer q) × S)
    (p : Program σ ε α) (f : Except ε α → Program σ ε β) (s : S) :
    (p.outcome f).run handle s = (f (p.run handle s).1).run handle (p.run handle s).2 := by
  induction p generalizing s with
  | done r => rfl
  | ask q next ih => simp [ih]

theorem run_bind (handle : (q : σ.Request) → S → Except ε (σ.Answer q) × S)
    (p : Program σ ε α) (f : α → Program σ ε β) (s : S) :
    (p >>= f).run handle s =
      (resume f (p.run handle s).1).run handle (p.run handle s).2 := by
  rw [bind_eq_outcome, run_outcome]

@[simp] theorem interpret_done (f : (q : σ.Request) → Program υ ε (σ.Answer q))
    (r : Except ε α) : (done r).interpret f = done r := rfl

theorem interpret_outcome (f : (q : σ.Request) → Program υ ε (σ.Answer q))
    (p : Program σ ε α) (g : Except ε α → Program σ ε β) :
    (p.outcome g).interpret f = (p.interpret f).outcome fun r => (g r).interpret f := by
  induction p with
  | done r => rfl
  | ask q next ih => simp [interpret, outcome_assoc, ih]

/-- Running an interpreted program is running the program itself, with each request answered by
running its interpretation. -/
theorem run_interpret (handle : (q : υ.Request) → S → Except ε (υ.Answer q) × S)
    (f : (q : σ.Request) → Program υ ε (σ.Answer q)) (p : Program σ ε α) (s : S) :
    (p.interpret f).run handle s = p.run (fun q => (f q).run handle) s := by
  induction p generalizing s with
  | done r => rfl
  | ask q next ih => simp [interpret, run_outcome, ih]

end Program

end SecretMirror
