/-
Programs run against a script of environment answers.

A program that talks to its environment is a function of the answers the
environment is going to give.  Every operation takes the next answer of the
script, leaves one event in the trace and goes on with what the answer says; a
program whose script has run out is `cut`.  A run on a finite script is thus a
finite initial part of a run of the real program, and a statement about all
scripts is a statement about all such parts.  `Causal` says so of a program: its
run on some answers is the beginning of every run on more of them.

`Monitor` follows a trace from outside.  Its step relation says what the
environment may do and is the place of every assumption about it; its predicate
`ok` is the obligation that the program owes at each event.  `Triple` is the
Hoare triple of a program under a monitor, and the rules below it are all that
the verification of a program needs: one for each way to build a program.
-/

namespace Scripted

/-- How a run ends: with a value, with the error that unwinds the caller, or
because the script has no further answer. -/
inductive Outcome (α : Type) where
  | done (value : α)
  | failed
  | cut
  deriving DecidableEq, Repr

/-- What a run leaves: its outcome, the answers it did not take, and the events
in the order in which they happened. -/
structure Run (A E α : Type) where
  outcome : Outcome α
  rest : List A
  trace : List E

def Prog (A E α : Type) : Type := List A → Run A E α

section Programs

variable {A E α β σ : Type}

def Prog.pure (a : α) : Prog A E α := fun script => ⟨.done a, script, []⟩

def Prog.bind (p : Prog A E α) (k : α → Prog A E β) : Prog A E β := fun script =>
  match p script with
  | ⟨.done a, rest, t⟩ => ⟨(k a rest).outcome, (k a rest).rest, t ++ (k a rest).trace⟩
  | ⟨.failed, rest, t⟩ => ⟨.failed, rest, t⟩
  | ⟨.cut, rest, t⟩ => ⟨.cut, rest, t⟩

instance : Monad (Prog A E) where
  pure := Prog.pure
  bind := Prog.bind

/-- One operation of the environment.  Its answer decides the event it leaves
and whether it returns a value or the error. -/
def perform (event : A → E) (result : A → Option α) : Prog A E α
  | [] => ⟨.cut, [], []⟩
  | a :: rest =>
    match result a with
    | some v => ⟨.done v, rest, [event a]⟩
    | none => ⟨.failed, rest, [event a]⟩

/-- An action of the program that cannot fail and needs no answer. -/
def emit (e : E) : Prog A E Unit := fun script => ⟨.done (), script, [e]⟩

def fail : Prog A E α := fun script => ⟨.failed, script, []⟩

/-- Run `p` and turn its error into a value. -/
def attempt (p : Prog A E α) : Prog A E (Option α) := fun script =>
  match p script with
  | ⟨.done a, rest, t⟩ => ⟨.done (some a), rest, t⟩
  | ⟨.failed, rest, t⟩ => ⟨.done none, rest, t⟩
  | ⟨.cut, rest, t⟩ => ⟨.cut, rest, t⟩

/-- At most `fuel` rounds of a loop whose body either goes on with a new loop
state or leaves the loop with a value. -/
def iterateFor (body : σ → Prog A E (σ ⊕ β)) : Nat → σ → Prog A E β
  | 0, _ => fun script => ⟨.cut, script, []⟩
  | fuel + 1, x => body x >>= fun r =>
      match r with
      | .inl y => iterateFor body fuel y
      | .inr b => Pure.pure b

/-- A loop.  A body that takes an answer in every round cannot go through more
rounds than there are answers, so the bound only cuts a run whose script has
ended: see `iterate_eq`. -/
def iterate (body : σ → Prog A E (σ ⊕ β)) (x : σ) : Prog A E β := fun script =>
  iterateFor body (script.length + 1) x script

end Programs

/-! ## Running a composed program -/

section Running

variable {A E α β σ : Type}

theorem run_bind (p : Prog A E α) (k : α → Prog A E β) (script : List A) :
    (p >>= k) script =
      match p script with
      | ⟨.done a, rest, t⟩ => ⟨(k a rest).outcome, (k a rest).rest, t ++ (k a rest).trace⟩
      | ⟨.failed, rest, t⟩ => ⟨.failed, rest, t⟩
      | ⟨.cut, rest, t⟩ => ⟨.cut, rest, t⟩ := rfl

theorem run_bind_done {p : Prog A E α} {k : α → Prog A E β} {script rest : List A} {a : α}
    {t : List E} (h : p script = ⟨.done a, rest, t⟩) :
    (p >>= k) script = ⟨(k a rest).outcome, (k a rest).rest, t ++ (k a rest).trace⟩ := by
  rw [run_bind, h]

theorem outcome_bind {p : Prog A E α} (k : α → Prog A E β) {script : List A} {a : α}
    (h : (p script).outcome = .done a) :
    ((p >>= k) script).outcome = (k a (p script).rest).outcome := by
  have hrun : p script = ⟨.done a, (p script).rest, (p script).trace⟩ := by rw [← h]
  rw [run_bind_done hrun]

/-- The ways in which the run of a composed program goes. -/
theorem run_bind_cases (p : Prog A E α) (k : α → Prog A E β) (script : List A) :
    (∃ a rest t, p script = ⟨.done a, rest, t⟩ ∧
      (p >>= k) script = ⟨(k a rest).outcome, (k a rest).rest, t ++ (k a rest).trace⟩) ∨
    (∃ rest t, p script = ⟨.failed, rest, t⟩ ∧ (p >>= k) script = ⟨.failed, rest, t⟩) ∨
    ∃ rest t, p script = ⟨.cut, rest, t⟩ ∧ (p >>= k) script = ⟨.cut, rest, t⟩ := by
  rw [run_bind]
  obtain ⟨outcome, rest, t⟩ := p script
  cases outcome with
  | done a => exact .inl ⟨a, rest, t, rfl, rfl⟩
  | failed => exact .inr (.inl ⟨rest, t, rfl, rfl⟩)
  | cut => exact .inr (.inr ⟨rest, t, rfl, rfl⟩)

/-- A program that ends in a value of its own returns no other. -/
theorem done_of_bind_pure {p : Prog A E α} {b c : β} {script : List A}
    (h : ((p >>= fun _ => pure b) script).outcome = .done c) : b = c := by
  rcases run_bind_cases p (fun _ => pure b) script with
    ⟨a, rest, t, -, hrun⟩ | ⟨rest, t, -, hrun⟩ | ⟨rest, t, -, hrun⟩ <;> rw [hrun] at h
  · exact Outcome.done.inj h
  · cases h
  · cases h

theorem run_attempt_cases (p : Prog A E α) (script : List A) :
    (∃ a rest t, p script = ⟨.done a, rest, t⟩ ∧ attempt p script = ⟨.done (some a), rest, t⟩) ∨
    (∃ rest t, p script = ⟨.failed, rest, t⟩ ∧ attempt p script = ⟨.done none, rest, t⟩) ∨
    ∃ rest t, p script = ⟨.cut, rest, t⟩ ∧ attempt p script = ⟨.cut, rest, t⟩ := by
  unfold attempt
  obtain ⟨outcome, rest, t⟩ := p script
  cases outcome with
  | done a => exact .inl ⟨a, rest, t, rfl, rfl⟩
  | failed => exact .inr (.inl ⟨rest, t, rfl, rfl⟩)
  | cut => exact .inr (.inr ⟨rest, t, rfl, rfl⟩)

theorem trace_perform_cons (event : A → E) (result : A → Option α) (a : A) (rest : List A) :
    (perform event result (a :: rest)).trace = [event a] := by
  simp only [perform]
  cases result a <;> rfl

theorem trace_attempt (p : Prog A E α) (script : List A) :
    (attempt p script).trace = (p script).trace := by
  rcases run_attempt_cases p script with
    ⟨a, rest, t, hp, h⟩ | ⟨rest, t, hp, h⟩ | ⟨rest, t, hp, h⟩ <;> rw [hp, h]

/-- The trace of the first program is the beginning of the trace of the two. -/
theorem trace_bind (p : Prog A E α) (k : α → Prog A E β) (script : List A) :
    (p script).trace <+: ((p >>= k) script).trace := by
  rcases run_bind_cases p k script with
    ⟨a, rest, t, hp, h⟩ | ⟨rest, t, hp, h⟩ | ⟨rest, t, hp, h⟩
  · exact ⟨(k a rest).trace, by rw [hp, h]⟩
  · exact ⟨[], by rw [hp, h, List.append_nil]⟩
  · exact ⟨[], by rw [hp, h, List.append_nil]⟩

/-- The second run has `more` answers to take than the first.  It goes on where
the first was cut, and if the first was over it is the same run. -/
structure Run.Begins (run : Run A E α) (more : List A) (run' : Run A E α) : Prop where
  ended : run.outcome ≠ .cut → run' = { run with rest := run.rest ++ more }
  trace : run.trace <+: run'.trace

theorem Run.Begins.same (outcome : Outcome α) (rest more : List A) (t : List E) :
    Run.Begins ⟨outcome, rest, t⟩ more ⟨outcome, rest ++ more, t⟩ :=
  ⟨fun _ => rfl, List.prefix_rfl⟩

theorem Run.Begins.done {a : α} {rest more : List A} {t : List E} {run' : Run A E α}
    (h : Run.Begins ⟨.done a, rest, t⟩ more run') : run' = ⟨.done a, rest ++ more, t⟩ :=
  h.ended (fun hcut => by cases hcut)

theorem Run.Begins.failed {rest more : List A} {t : List E} {run' : Run A E α}
    (h : Run.Begins ⟨.failed, rest, t⟩ more run') : run' = ⟨.failed, rest ++ more, t⟩ :=
  h.ended (fun hcut => by cases hcut)

theorem Run.Begins.bind {p p' : Prog A E α} {k k' : α → Prog A E β} {script script' more : List A}
    (hp : (p script).Begins more (p' script'))
    (hk : ∀ a rest, (k a rest).Begins more (k' a (rest ++ more))) :
    ((p >>= k) script).Begins more ((p' >>= k') script') := by
  have htrace := hp.trace.trans (trace_bind p' k' script')
  rcases run_bind_cases p k script with
    ⟨a, rest, t, hrun, h⟩ | ⟨rest, t, hrun, h⟩ | ⟨rest, t, hrun, h⟩ <;> rw [hrun] at hp htrace
  · rw [h, run_bind_done hp.done]
    refine ⟨fun hover => ?_, (List.prefix_append_right_inj t).mpr (hk a rest).trace⟩
    have hsame := (hk a rest).ended hover
    simp only [hsame]
  · rw [h, run_bind, hp.failed]
    exact .same .failed rest more t
  · rw [h]
    exact ⟨fun hover => absurd rfl hover, htrace⟩

/-- A program is causal when it never hands back more answers than it got, and
when a run on some answers is the beginning of every run on more of them. -/
structure Causal (p : Prog A E α) : Prop where
  shrinking : ∀ script, (p script).rest.length ≤ script.length
  begins : ∀ script more, (p script).Begins more (p (script ++ more))

theorem causal_pure (a : α) : Causal (pure a : Prog A E α) where
  shrinking := fun _ => Nat.le_refl _
  begins := fun script more => .same (.done a) script more []

theorem causal_fail : Causal (fail : Prog A E α) where
  shrinking := fun _ => Nat.le_refl _
  begins := fun script more => .same .failed script more []

theorem causal_emit (e : E) : Causal (emit e : Prog A E Unit) where
  shrinking := fun _ => Nat.le_refl _
  begins := fun script more => .same (.done ()) script more [e]

theorem causal_perform (event : A → E) (result : A → Option α) :
    Causal (perform event result) where
  shrinking := by
    intro script
    cases script with
    | nil => exact Nat.le_refl _
    | cons a rest =>
      simp only [perform]
      cases result a <;> exact Nat.le_succ _
  begins := by
    intro script more
    cases script with
    | nil => exact ⟨fun hover => absurd rfl hover, List.nil_prefix⟩
    | cons a rest =>
      simp only [List.cons_append, perform]
      cases result a <;> exact .same _ rest more _

theorem causal_bind {p : Prog A E α} {k : α → Prog A E β} (hp : Causal p)
    (hk : ∀ a, Causal (k a)) : Causal (p >>= k) where
  shrinking := by
    intro script
    have h := hp.shrinking script
    rw [run_bind]
    match hr : p script with
    | ⟨.done a, rest, t⟩ =>
      rw [hr] at h
      exact Nat.le_trans ((hk a).shrinking rest) h
    | ⟨.failed, rest, t⟩ => rw [hr] at h; exact h
    | ⟨.cut, rest, t⟩ => rw [hr] at h; exact h
  begins := fun script more => (hp.begins script more).bind (fun a rest => (hk a).begins rest more)

theorem causal_attempt {p : Prog A E α} (hp : Causal p) : Causal (attempt p) where
  shrinking := by
    intro script
    have h := hp.shrinking script
    rcases run_attempt_cases p script with
      ⟨a, rest, t, hp, hrun⟩ | ⟨rest, t, hp, hrun⟩ | ⟨rest, t, hp, hrun⟩ <;> rw [hp] at h <;>
      rw [hrun] <;> exact h
  begins := by
    intro script more
    have hbegins := hp.begins script more
    rcases run_attempt_cases p script with
      ⟨a, rest, t, hrun, h⟩ | ⟨rest, t, hrun, h⟩ | ⟨rest, t, hrun, h⟩ <;> rw [hrun] at hbegins <;>
      rw [h]
    · rw [attempt, hbegins.done]
      exact .same _ rest more t
    · rw [attempt, hbegins.failed]
      exact .same _ rest more t
    · refine ⟨fun hover => absurd rfl hover, ?_⟩
      rw [trace_attempt]
      exact hbegins.trace

theorem causal_iterate {body : σ → Prog A E (σ ⊕ β)} (hbody : ∀ x, Causal (body x)) (x : σ) :
    Causal (iterate body x) where
  shrinking := by
    have hfuel : ∀ fuel x script, (iterateFor body fuel x script).rest.length ≤ script.length := by
      intro fuel
      induction fuel with
      | zero => exact fun _ _ => Nat.le_refl _
      | succ fuel ih =>
        intro x script
        rcases run_bind_cases (body x) _ script with
          ⟨r, rest, t, hrun, h⟩ | ⟨rest, t, hrun, h⟩ | ⟨rest, t, hrun, h⟩ <;>
          rw [iterateFor, h] <;> have hle := (hbody x).shrinking script <;> rw [hrun] at hle
        · cases r with
          | inl y => exact Nat.le_trans (ih y rest) hle
          | inr b => exact hle
        · exact hle
        · exact hle
    exact fun script => hfuel (script.length + 1) x script
  begins := by
    have hfuel : ∀ fuel fuel' x script more, fuel ≤ fuel' →
        (iterateFor body fuel x script).Begins more (iterateFor body fuel' x (script ++ more)) := by
      intro fuel
      induction fuel with
      | zero =>
        exact fun _ _ _ _ _ => ⟨fun hover => absurd rfl hover, List.nil_prefix⟩
      | succ fuel ih =>
        intro fuel' x script more hle
        obtain ⟨fuel', rfl⟩ : ∃ n, fuel' = n + 1 := ⟨fuel' - 1, by omega⟩
        refine ((hbody x).begins script more).bind (fun r rest => ?_)
        cases r with
        | inl y => exact ih fuel' y rest more (by omega)
        | inr b => exact .same (.done b) rest more []
    intro script more
    exact hfuel _ _ x script more (by simp)

/-- The program takes an answer if it returns. -/
structure Takes (p : Prog A E α) : Prop where
  causal : Causal p
  taken : ∀ script a, (p script).outcome = .done a → (p script).rest.length < script.length

theorem takes_perform (event : A → E) (result : A → Option α) : Takes (perform event result) where
  causal := causal_perform event result
  taken := by
    intro script a h
    cases script with
    | nil => cases h
    | cons answer rest =>
      simp only [perform]
      cases result answer <;> exact Nat.lt_succ_self _

theorem takes_bind {p : Prog A E α} {k : α → Prog A E β} (hp : Takes p)
    (hk : ∀ a, Causal (k a)) : Takes (p >>= k) where
  causal := causal_bind hp.causal hk
  taken := by
    intro script b h
    rcases run_bind_cases p k script with
      ⟨a, rest, t, hrun, hbind⟩ | ⟨rest, t, -, hbind⟩ | ⟨rest, t, -, hbind⟩ <;> rw [hbind] at h ⊢
    · have hlt := hp.taken script a (by rw [hrun])
      rw [hrun] at hlt
      exact Nat.lt_of_le_of_lt ((hk a).shrinking rest) hlt
    · cases h
    · cases h

/-- The round takes an answer if the loop goes on after it. -/
structure Advancing (p : Prog A E (σ ⊕ β)) : Prop where
  causal : Causal p
  taken : ∀ script y, (p script).outcome = .done (.inl y) → (p script).rest.length < script.length

theorem Takes.advancing {p : Prog A E (σ ⊕ β)} (hp : Takes p) : Advancing p :=
  ⟨hp.causal, fun script y h => hp.taken script (.inl y) h⟩

theorem advancing_leave (b : β) : Advancing (pure (.inr b) : Prog A E (σ ⊕ β)) where
  causal := causal_pure _
  taken := by
    intro script y h
    cases h

theorem advancing_bind {p : Prog A E α} {k : α → Prog A E (σ ⊕ β)} (hp : Causal p)
    (hk : ∀ a, Advancing (k a)) : Advancing (p >>= k) where
  causal := causal_bind hp (fun a => (hk a).causal)
  taken := by
    intro script y h
    have hle := hp.shrinking script
    rcases run_bind_cases p k script with
      ⟨a, rest, t, hrun, hbind⟩ | ⟨rest, t, -, hbind⟩ | ⟨rest, t, -, hbind⟩ <;> rw [hbind] at h ⊢
    · rw [hrun] at hle
      exact Nat.lt_of_lt_of_le ((hk a).taken rest y h) hle
    · cases h
    · cases h

/-- The body of a loop takes an answer in every round that goes on. -/
def Advances (body : σ → Prog A E (σ ⊕ β)) : Prop :=
  ∀ x script y, (body x script).outcome = .done (.inl y) →
    (body x script).rest.length < script.length

theorem iterateFor_succ (body : σ → Prog A E (σ ⊕ β)) (fuel : Nat) (x : σ) :
    iterateFor body (fuel + 1) x = body x >>= fun r =>
      match r with
      | .inl y => iterateFor body fuel y
      | .inr b => pure b := rfl

/-- More fuel than answers changes nothing. -/
theorem iterateFor_fuel {body : σ → Prog A E (σ ⊕ β)} (hbody : Advances body) :
    ∀ (fuel : Nat) (script : List A) (x : σ), script.length < fuel →
      iterateFor body fuel x script = iterateFor body (script.length + 1) x script := by
  intro fuel
  induction fuel using Nat.strongRecOn with
  | ind fuel ih =>
    intro script x hfuel
    obtain ⟨fuel, rfl⟩ : ∃ n, fuel = n + 1 := ⟨fuel - 1, by omega⟩
    rw [iterateFor_succ, iterateFor_succ, run_bind, run_bind]
    match hr : body x script with
    | ⟨.done (.inl y), rest, t⟩ =>
      have hlt : rest.length < script.length := by
        have := hbody x script y (by rw [hr])
        rwa [hr] at this
      have h₁ := ih fuel (by omega) rest y (by omega)
      have h₂ := ih script.length (by omega) rest y hlt
      simp only [h₁, h₂]
    | ⟨.done (.inr b), rest, t⟩ => rfl
    | ⟨.failed, rest, t⟩ => rfl
    | ⟨.cut, rest, t⟩ => rfl

/-- The loop equation: the bound in `iterate` is never felt. -/
theorem iterate_eq {body : σ → Prog A E (σ ⊕ β)} (hbody : Advances body) (x : σ) :
    iterate body x = body x >>= fun r =>
      match r with
      | .inl y => iterate body y
      | .inr b => pure b := by
  funext script
  simp only [iterate, iterateFor_succ]
  rw [run_bind, run_bind]
  match hr : body x script with
  | ⟨.done (.inl y), rest, t⟩ =>
    have hlt : rest.length < script.length := by
      have := hbody x script y (by rw [hr])
      rwa [hr] at this
    have h := iterateFor_fuel hbody script.length rest y hlt
    simp only [h]
    rfl
  | ⟨.done (.inr b), rest, t⟩ => rfl
  | ⟨.failed, rest, t⟩ => rfl
  | ⟨.cut, rest, t⟩ => rfl

/-- The trace of the first round is the beginning of the trace of the loop. -/
theorem trace_round {body : σ → Prog A E (σ ⊕ β)} (hbody : Advances body) (x : σ)
    (script : List A) : (body x script).trace <+: (iterate body x script).trace := by
  rw [iterate_eq hbody]
  exact trace_bind (body x) _ script

end Running

/-! ## Monitors -/

/-- An observer of traces.  `step` is what it may see next and how it moves on;
`ok` is what it demands of an event in the state before it. -/
structure Monitor (E S : Type) where
  step : S → E → S → Prop
  ok : S → E → Prop

namespace Monitor

/-- An observer that takes note of every event. -/
def observing {E S : Type} (next : S → E → S) (ok : S → E → Prop) : Monitor E S where
  step s e s' := s' = next s e
  ok := ok

variable {E S : Type} (M : Monitor E S)

/-- The monitor can follow the trace from the first state to the second. -/
def Path : S → List E → S → Prop
  | s, [], s' => s = s'
  | s, e :: t, s' => ∃ m, M.step s e m ∧ Path m t s'

/-- Every event that the monitor can follow meets its demand. -/
def Safe : S → List E → Prop
  | _, [] => True
  | s, e :: t => ∀ m, M.step s e m → M.ok s e ∧ Safe m t

theorem path_append {s s' : S} {t₁ t₂ : List E} :
    M.Path s (t₁ ++ t₂) s' ↔ ∃ m, M.Path s t₁ m ∧ M.Path m t₂ s' := by
  induction t₁ generalizing s with
  | nil => simp [Path]
  | cons e t ih =>
    simp only [List.cons_append, Path, ih]
    constructor
    · rintro ⟨m, hm, n, hn, hs'⟩
      exact ⟨n, ⟨m, hm, hn⟩, hs'⟩
    · rintro ⟨n, ⟨m, hm, hn⟩, hs'⟩
      exact ⟨m, hm, n, hn, hs'⟩

theorem safe_append {s : S} {t₁ t₂ : List E} (h₁ : M.Safe s t₁)
    (h₂ : ∀ m, M.Path s t₁ m → M.Safe m t₂) : M.Safe s (t₁ ++ t₂) := by
  induction t₁ generalizing s with
  | nil => exact h₂ s rfl
  | cons e t ih =>
    intro m hm
    obtain ⟨hok, ht⟩ := h₁ m hm
    exact ⟨hok, ih ht (fun n hn => h₂ n ⟨m, hm, hn⟩)⟩

/-- An observer goes one way along a trace. -/
theorem path_observing (next : S → E → S) (ok : S → E → Prop) (s : S) (t : List E) :
    (observing next ok).Path s t (t.foldl next s) := by
  induction t generalizing s with
  | nil => rfl
  | cons e t ih => exact ⟨next s e, rfl, ih (next s e)⟩

theorem eq_of_path_observing {next : S → E → S} {ok : S → E → Prop} {s s' : S} {t : List E}
    (h : (observing next ok).Path s t s') : s' = t.foldl next s := by
  induction t generalizing s with
  | nil => exact Eq.symm h
  | cons e t ih =>
    obtain ⟨m, rfl, hm⟩ := h
    exact ih hm

/-- What an observer demands of an event in the middle of a safe trace. -/
theorem ok_of_safe_append {next : S → E → S} {ok : S → E → Prop} {s : S} {t u : List E} {e : E}
    (h : (observing next ok).Safe s (t ++ e :: u)) : ok (t.foldl next s) e := by
  induction t generalizing s with
  | nil => exact (h (next s e) rfl).1
  | cons e' t ih => exact ih (h (next s e') rfl).2

/-- The states a deterministic follower goes through, with the event each of
them meets.  It stops where it cannot go on. -/
def follow (next : S → E → Option S) : S → List E → List (S × E)
  | _, [] => []
  | s, e :: t =>
    match next s e with
    | some s' => (s, e) :: follow next s' t
    | none => []

/-- A follower that keeps to the monitor's steps sees no violation in a safe
trace. -/
theorem ok_of_mem_follow {next : S → E → Option S}
    (hnext : ∀ s e s', next s e = some s' → M.step s e s') {s : S} {t : List E}
    (h : M.Safe s t) {x : S × E} (hx : x ∈ follow next s t) : M.ok x.1 x.2 := by
  induction t generalizing s with
  | nil => exact absurd hx (by simp [follow])
  | cons e t ih =>
    unfold follow at hx
    cases hn : next s e with
    | none => rw [hn] at hx; exact absurd hx (by simp)
    | some s' =>
      rw [hn] at hx
      obtain ⟨hok, ht⟩ := h s' (hnext s e s' hn)
      rcases List.mem_cons.mp hx with rfl | hmem
      · exact hok
      · exact ih ht hmem

/-- A follower that goes through a trace shows a path. -/
theorem path_of_foldlM {next : S → E → Option S}
    (hnext : ∀ s e s', next s e = some s' → M.step s e s') {s s' : S} {t : List E}
    (h : t.foldlM next s = some s') : M.Path s t s' := by
  induction t generalizing s with
  | nil => exact Option.some_inj.mp h
  | cons e t ih =>
    rw [List.foldlM_cons] at h
    obtain ⟨m, hm, hrest⟩ := Option.bind_eq_some_iff.mp h
    exact ⟨m, hnext s e m hm, ih hrest⟩

/-- The same monitor in runs whose steps all meet a condition. -/
def restrict (C : S → E → S → Prop) : Monitor E S where
  step s e s' := C s e s' ∧ M.step s e s'
  ok := M.ok

end Monitor

/-! ## Triples -/

/-- From a state in `P`, every run of `p` meets the demands of the monitor, and
leaves it in `Q v` when it returns `v` and in `R` when it fails. -/
def Triple {A E S α : Type} (M : Monitor E S) (P : S → Prop) (p : Prog A E α)
    (Q : α → S → Prop) (R : S → Prop) : Prop :=
  ∀ script s, P s → M.Safe s (p script).trace ∧
    ∀ s', M.Path s (p script).trace s' →
      match (p script).outcome with
      | .done a => Q a s'
      | .failed => R s'
      | .cut => True

section Rules

variable {A E S α β σ : Type} {M : Monitor E S} {P P' : S → Prop} {R R' : S → Prop}
  {Q T : α → S → Prop}

theorem triple_pure {a : α} (h : ∀ s, P s → Q a s) :
    Triple M P (pure a : Prog A E α) Q R := by
  intro script s hs
  refine ⟨trivial, fun s' hp => ?_⟩
  obtain rfl : s = s' := hp
  exact h s hs

theorem triple_fail (h : ∀ s, P s → R s) : Triple M P (fail : Prog A E α) Q R := by
  intro script s hs
  refine ⟨trivial, fun s' hp => ?_⟩
  obtain rfl : s = s' := hp
  exact h s hs

theorem triple_emit {e : E} {Q : Unit → S → Prop}
    (h : ∀ s s', P s → M.step s e s' → M.ok s e ∧ Q () s') :
    Triple M P (emit e : Prog A E Unit) Q R := by
  intro script s hs
  refine ⟨fun m hm => ⟨(h s m hs hm).1, trivial⟩, fun s' hp => ?_⟩
  obtain ⟨m, hm, rfl⟩ := hp
  exact (h s m hs hm).2

theorem triple_perform {event : A → E} {result : A → Option α}
    (h : ∀ a s s', P s → M.step s (event a) s' → M.ok s (event a) ∧
      match result a with
      | some v => Q v s'
      | none => R s') :
    Triple M P (perform event result) Q R := by
  intro script s hs
  cases script with
  | nil => exact ⟨trivial, fun _ _ => trivial⟩
  | cons a rest =>
    have ha := h a s
    simp only [perform]
    cases hr : result a with
    | some v =>
      rw [hr] at ha
      refine ⟨fun m hm => ⟨(ha m hs hm).1, trivial⟩, fun s' hp => ?_⟩
      obtain ⟨m, hm, rfl⟩ := hp
      exact (ha m hs hm).2
    | none =>
      rw [hr] at ha
      refine ⟨fun m hm => ⟨(ha m hs hm).1, trivial⟩, fun s' hp => ?_⟩
      obtain ⟨m, hm, rfl⟩ := hp
      exact (ha m hs hm).2

theorem triple_bind {p : Prog A E α} {k : α → Prog A E β} {T : α → S → Prop}
    {Q : β → S → Prop} (hp : Triple M P p T R) (hk : ∀ a, Triple M (T a) (k a) Q R) :
    Triple M P (p >>= k) Q R := by
  intro script s hs
  obtain ⟨hsafe, hpost⟩ := hp script s hs
  rw [run_bind]
  match hr : p script with
  | ⟨.done a, rest, t⟩ =>
    rw [hr] at hsafe hpost
    refine ⟨M.safe_append hsafe (fun m hm => (hk a rest m (hpost m hm)).1), ?_⟩
    intro s' hs'
    obtain ⟨m, hm, hm'⟩ := M.path_append.mp hs'
    exact (hk a rest m (hpost m hm)).2 s' hm'
  | ⟨.failed, rest, t⟩ => rw [hr] at hsafe hpost; exact ⟨hsafe, hpost⟩
  | ⟨.cut, rest, t⟩ => rw [hr] at hsafe; exact ⟨hsafe, fun _ _ => trivial⟩

theorem triple_conseq {p : Prog A E α} (h : Triple M P' p T R') (hP : ∀ s, P s → P' s)
    (hQ : ∀ a s, T a s → Q a s) (hR : ∀ s, R' s → R s) : Triple M P p Q R := by
  intro script s hs
  obtain ⟨hsafe, hpost⟩ := h script s (hP s hs)
  refine ⟨hsafe, fun s' hs' => ?_⟩
  have := hpost s' hs'
  cases hr : (p script).outcome with
  | done a => rw [hr] at this; exact hQ a s' this
  | failed => rw [hr] at this; exact hR s' this
  | cut => trivial

theorem triple_pre {p : Prog A E α} (h : Triple M P' p Q R) (hP : ∀ s, P s → P' s) :
    Triple M P p Q R :=
  triple_conseq h hP (fun _ _ h => h) (fun _ h => h)

theorem triple_post {p : Prog A E α} (h : Triple M P p T R) (hQ : ∀ a s, T a s → Q a s) :
    Triple M P p Q R :=
  triple_conseq h (fun _ h => h) hQ (fun _ h => h)

/-- A precondition that speaks of one state is a hypothesis about that state. -/
theorem triple_of_forall {p : Prog A E α}
    (h : ∀ s₀, P s₀ → Triple M (fun s => s = s₀) p Q R) : Triple M P p Q R := by
  intro script s hs
  exact h s hs script s rfl

/-- A fact that does not depend on the state may be assumed on the way. -/
theorem triple_pure_pre {φ : Prop} {p : Prog A E α} (h : φ → Triple M P p Q R) :
    Triple M (fun s => φ ∧ P s) p Q R := by
  intro script s hs
  exact h hs.1 script s hs.2

theorem triple_attempt {p : Prog A E α} {Q : Option α → S → Prop}
    (h : Triple M P p (fun a => Q (some a)) (Q none)) : Triple M P (attempt p) Q R := by
  intro script s hs
  obtain ⟨hsafe, hpost⟩ := h script s hs
  simp only [attempt]
  match hr : p script with
  | ⟨.done a, rest, t⟩ => rw [hr] at hsafe hpost; exact ⟨hsafe, hpost⟩
  | ⟨.failed, rest, t⟩ => rw [hr] at hsafe hpost; exact ⟨hsafe, hpost⟩
  | ⟨.cut, rest, t⟩ => rw [hr] at hsafe; exact ⟨hsafe, fun _ _ => trivial⟩

/-- The rule of the loop: `I` is the invariant at the head of the loop. -/
theorem triple_iterate {body : σ → Prog A E (σ ⊕ β)} {I : σ → S → Prop} {Q : β → S → Prop}
    (h : ∀ x, Triple M (I x) (body x)
      (fun r s => match r with
        | .inl y => I y s
        | .inr b => Q b s) R) (x : σ) : Triple M (I x) (iterate body x) Q R := by
  have hfuel : ∀ fuel x, Triple M (I x) (iterateFor body fuel x) Q R := by
    intro fuel
    induction fuel with
    | zero => intro x script s _; exact ⟨trivial, fun _ _ => trivial⟩
    | succ fuel ih =>
      intro x
      rw [iterateFor_succ]
      refine triple_bind (h x) (fun r => ?_)
      match r with
      | .inl y => exact ih y
      | .inr b => exact triple_pure (fun _ hb => hb)
  intro script s hs
  exact hfuel (script.length + 1) x script s hs

end Rules

/-! ## Programs that keep an invariant -/

/-- `I` holds again when `p` returns, and `R` when it fails. -/
def Keeps {A E S α : Type} (M : Monitor E S) (I R : S → Prop) (p : Prog A E α) : Prop :=
  Triple M I p (fun _ => I) R

section Keeping

variable {A E S α β σ : Type} {M : Monitor E S} {I R : S → Prop}

theorem keeps_pure (a : α) : Keeps M I R (pure a : Prog A E α) :=
  triple_pure (fun _ h => h)

theorem keeps_bind {p : Prog A E α} {k : α → Prog A E β} (hp : Keeps M I R p)
    (hk : ∀ a, Keeps M I R (k a)) : Keeps M I R (p >>= k) :=
  triple_bind hp hk

theorem keeps_emit {e : E} (h : ∀ s s', I s → M.step s e s' → M.ok s e ∧ I s') :
    Keeps M I R (emit e : Prog A E Unit) :=
  triple_emit h

theorem keeps_weaken {R' : S → Prop} {p : Prog A E α} (h : Keeps M I R p)
    (hR : ∀ s, R s → R' s) : Keeps M I R' p :=
  triple_conseq h (fun _ h => h) (fun _ _ h => h) hR

/-- An operation that cannot fail. -/
theorem keeps_perform {event : A → E} {result : A → Option α}
    (htotal : ∀ a, (result a).isSome)
    (h : ∀ a s s', I s → M.step s (event a) s' → M.ok s (event a) ∧ I s') :
    Keeps M I R (perform event result) := by
  refine triple_perform (fun a s s' hs hstep => ?_)
  obtain ⟨hok, hI⟩ := h a s s' hs hstep
  obtain ⟨v, hv⟩ := Option.isSome_iff_exists.mp (htotal a)
  rw [hv]
  exact ⟨hok, hI⟩

theorem keeps_attempt {p : Prog A E α} (h : Keeps M I I p) : Keeps M I R (attempt p) :=
  triple_attempt h

theorem keeps_iterate {body : σ → Prog A E (σ ⊕ β)} (h : ∀ x, Keeps M I R (body x)) (x : σ) :
    Keeps M I R (iterate body x) := by
  refine triple_iterate (I := fun _ => I) (fun x => triple_post (h x) (fun r s hs => ?_)) x
  cases r <;> exact hs

/-- An invariant that is kept holds in every state of the run, so a program that
keeps it is safe. -/
theorem Keeps.safe {p : Prog A E α} (h : Keeps M I R p) (script : List A) {s : S} (hs : I s) :
    M.Safe s (p script).trace :=
  (h script s hs).1

end Keeping

/-! ## Programs that wait for an answer -/

/-- In every run of `p` from `P` that is cut, the monitor is in `C` while `p`
waits for its next answer. -/
def Waiting {A E S α : Type} (M : Monitor E S) (P : S → Prop) (p : Prog A E α) (C : S → Prop) :
    Prop :=
  ∀ script s s', P s → (p script).outcome = .cut → M.Path s (p script).trace s' → C s'

section Waits

variable {A E S α β σ : Type} {M : Monitor E S} {P R C : S → Prop}

theorem waiting_pure (a : α) : Waiting M P (pure a : Prog A E α) C := by
  intro script s s' _ hcut
  cases hcut

theorem waiting_emit (e : E) : Waiting M P (emit e : Prog A E Unit) C := by
  intro script s s' _ hcut
  cases hcut

theorem waiting_perform {event : A → E} {result : A → Option α} (h : ∀ s, P s → C s) :
    Waiting M P (perform event result) C := by
  intro script s s' hs hcut hpath
  cases script with
  | nil =>
    obtain rfl : s = s' := hpath
    exact h s hs
  | cons a rest =>
    simp only [perform] at hcut
    cases hr : result a <;> rw [hr] at hcut <;> cases hcut

theorem waiting_bind {p : Prog A E α} {k : α → Prog A E β} {T : α → S → Prop}
    (hp : Triple M P p T R) (hw : Waiting M P p C) (hk : ∀ a, Waiting M (T a) (k a) C) :
    Waiting M P (p >>= k) C := by
  intro script s s' hs hcut hpath
  have hpost := (hp script s hs).2
  have hcutp := hw script s s' hs
  rcases run_bind_cases p k script with
    ⟨a, rest, t, hrun, h⟩ | ⟨rest, t, hrun, h⟩ | ⟨rest, t, hrun, h⟩ <;> rw [h] at hcut hpath <;>
    rw [hrun] at hpost hcutp
  · obtain ⟨m, hm, hm'⟩ := M.path_append.mp hpath
    exact hk a rest m s' (hpost m hm) hcut hm'
  · cases hcut
  · exact hcutp rfl hpath

theorem waiting_attempt {p : Prog A E α} (h : Waiting M P p C) : Waiting M P (attempt p) C := by
  intro script s s' hs hcut hpath
  rw [trace_attempt] at hpath
  rcases run_attempt_cases p script with
    ⟨a, rest, t, -, hrun⟩ | ⟨rest, t, -, hrun⟩ | ⟨rest, t, hp, hrun⟩
  · rw [hrun] at hcut
    cases hcut
  · rw [hrun] at hcut
    cases hcut
  · exact h script s s' hs (by rw [hp]) hpath

/-- The rule of the loop, with the invariant of its triple. -/
theorem waiting_iterate {body : σ → Prog A E (σ ⊕ β)} {I : σ → S → Prop} {Q : β → S → Prop}
    (h : ∀ x, Triple M (I x) (body x)
      (fun r s => match r with
        | .inl y => I y s
        | .inr b => Q b s) R)
    (hw : ∀ x, Waiting M (I x) (body x) C) (hI : ∀ x s, I x s → C s) (x : σ) :
    Waiting M (I x) (iterate body x) C := by
  have hfuel : ∀ fuel x, Waiting M (I x) (iterateFor body fuel x) C := by
    intro fuel
    induction fuel with
    | zero =>
      intro x script s s' hs _ hpath
      obtain rfl : s = s' := hpath
      exact hI x s hs
    | succ fuel ih =>
      intro x
      rw [iterateFor_succ]
      refine waiting_bind (h x) (hw x) (fun r => ?_)
      cases r with
      | inl y => exact ih y
      | inr b => exact waiting_pure b
  exact fun script => hfuel (script.length + 1) x script

end Waits

/-! ## Programs that come to an end -/

section Settling

variable {A E α β σ : Type} {G : A → Prop} {quiet : A}

/-- How `s` and `m` quiet answers after it are used up: first `s`, and then at
most `n` of the quiet ones. -/
structure Uses (G : A → Prop) (n : Nat) (s : List A) (m : Nat) (s' : List A) (m' : Nat) : Prop where
  good : ∀ a ∈ s', G a
  shorter : s'.length ≤ s.length
  inOrder : m' = m ∨ s' = []
  fewer : m' ≤ m
  bound : m ≤ m' + n

theorem Uses.refl {n : Nat} {s : List A} {m : Nat} (h : ∀ a ∈ s, G a) : Uses G n s m s m :=
  ⟨h, Nat.le_refl _, .inl rfl, Nat.le_refl _, Nat.le_add_right _ _⟩

theorem Uses.trans {n k : Nat} {s s₁ s₂ : List A} {m m₁ m₂ : Nat} (h₁ : Uses G n s m s₁ m₁)
    (h₂ : Uses G k s₁ m₁ s₂ m₂) : Uses G (n + k) s m s₂ m₂ where
  good := h₂.good
  shorter := Nat.le_trans h₂.shorter h₁.shorter
  inOrder := by
    rcases h₁.inOrder with rfl | rfl
    · exact h₂.inOrder
    · exact .inr (List.length_eq_zero_iff.mp (Nat.le_zero.mp h₂.shorter))
  fewer := Nat.le_trans h₂.fewer h₁.fewer
  bound := by
    have := h₁.bound
    have := h₂.bound
    omega

theorem Uses.mono {n k : Nat} {s s' : List A} {m m' : Nat} (h : Uses G n s m s' m') (hn : n ≤ k) :
    Uses G k s m s' m' :=
  { h with bound := Nat.le_trans h.bound (Nat.add_le_add_left hn m') }

/-- The program returns on all good answers, if they are followed by `n` quiet
ones. -/
def Settles (G : A → Prop) (quiet : A) (n : Nat) (p : Prog A E α) : Prop :=
  ∀ s m, (∀ a ∈ s, G a) → n ≤ m → ∃ v s' m' t,
    p (s ++ List.replicate m quiet) = ⟨.done v, s' ++ List.replicate m' quiet, t⟩ ∧
      Uses G n s m s' m'

theorem settles_pure {n : Nat} (a : α) : Settles G quiet n (pure a : Prog A E α) :=
  fun s m hs _ => ⟨a, s, m, [], rfl, .refl hs⟩

theorem settles_emit {n : Nat} (e : E) : Settles G quiet n (emit e : Prog A E Unit) :=
  fun s m hs _ => ⟨(), s, m, [e], rfl, .refl hs⟩

theorem settles_mono {n k : Nat} {p : Prog A E α} (h : Settles G quiet n p) (hn : n ≤ k) :
    Settles G quiet k p := by
  intro s m hs hm
  obtain ⟨v, s', m', t, hrun, huses⟩ := h s m hs (Nat.le_trans hn hm)
  exact ⟨v, s', m', t, hrun, huses.mono hn⟩

/-- An operation that takes every good answer. -/
theorem settles_perform {event : A → E} {result : A → Option α}
    (hgood : ∀ a, G a → (result a).isSome) (hquiet : (result quiet).isSome) :
    Settles G quiet 1 (perform event result) := by
  intro s m hs hm
  cases s with
  | nil =>
    obtain ⟨m, rfl⟩ : ∃ k, m = k + 1 := ⟨m - 1, by omega⟩
    obtain ⟨v, hv⟩ := Option.isSome_iff_exists.mp hquiet
    refine ⟨v, [], m, [event quiet], ?_,
      ⟨hs, Nat.le_refl _, .inr rfl, Nat.le_succ m, Nat.le_refl _⟩⟩
    simp [List.replicate_succ, perform, hv]
  | cons a s =>
    obtain ⟨v, hv⟩ := Option.isSome_iff_exists.mp (hgood a (hs a List.mem_cons_self))
    refine ⟨v, s, m, [event a], ?_, ⟨fun b hb => hs b (List.mem_cons_of_mem a hb), Nat.le_succ _,
      .inl rfl, Nat.le_refl m, Nat.le_succ m⟩⟩
    simp [perform, hv]

theorem settles_bind {n k : Nat} {p : Prog A E α} {q : α → Prog A E β}
    (hp : Settles G quiet n p) (hq : ∀ a, Settles G quiet k (q a)) :
    Settles G quiet (n + k) (p >>= q) := by
  intro s m hs hm
  obtain ⟨a, s₁, m₁, t₁, hrun₁, huses₁⟩ := hp s m hs (by omega)
  obtain ⟨b, s₂, m₂, t₂, hrun₂, huses₂⟩ := hq a s₁ m₁ huses₁.good (by
    have := huses₁.bound
    omega)
  exact ⟨b, s₂, m₂, t₁ ++ t₂, by rw [run_bind_done hrun₁, hrun₂], huses₁.trans huses₂⟩

/-- What returns does not fail, so only its value has to be dealt with. -/
theorem settles_attempt_bind {n k : Nat} {p : Prog A E α} {q : Option α → Prog A E β}
    (hp : Settles G quiet n p) (hq : ∀ a, Settles G quiet k (q (some a))) :
    Settles G quiet (n + k) (attempt p >>= q) := by
  intro s m hs hm
  obtain ⟨a, s₁, m₁, t₁, hrun₁, huses₁⟩ := hp s m hs (by omega)
  obtain ⟨b, s₂, m₂, t₂, hrun₂, huses₂⟩ := hq a s₁ m₁ huses₁.good (by
    have := huses₁.bound
    omega)
  have hattempt : attempt p (s ++ List.replicate m quiet) =
      ⟨.done (some a), s₁ ++ List.replicate m₁ quiet, t₁⟩ := by simp [attempt, hrun₁]
  exact ⟨b, s₂, m₂, t₁ ++ t₂, by rw [run_bind_done hattempt, hrun₂], huses₁.trans huses₂⟩

/-- A loop that a round on quiet answers alone leaves. -/
theorem settles_iterate {n : Nat} {body : σ → Prog A E (σ ⊕ β)} (hbody : Advances body)
    (hround : ∀ x, Settles G quiet n (body x))
    (hquiet : ∀ x m, n ≤ m → ∃ b m' t, body x (List.replicate m quiet) =
      ⟨.done (.inr b), List.replicate m' quiet, t⟩ ∧ m' ≤ m ∧ m ≤ m' + n) (x : σ) :
    Settles G quiet (n + n) (iterate body x) := by
  have hlast : ∀ x m, n ≤ m → ∃ b m' t, iterate body x (List.replicate m quiet) =
      ⟨.done b, List.replicate m' quiet, t⟩ ∧ m' ≤ m ∧ m ≤ m' + n := by
    intro x m hm
    obtain ⟨b, m', t, hrun, hle, hbound⟩ := hquiet x m hm
    refine ⟨b, m', t ++ [], ?_, hle, hbound⟩
    rw [iterate_eq hbody, run_bind_done hrun]
    rfl
  intro s
  -- The answers left decrease from round to round until only quiet ones remain.
  induction hlen : s.length using Nat.strongRecOn generalizing s x with
  | ind len ih =>
    intro m hs hm
    obtain ⟨r, s₁, m₁, t₁, hrun, huses⟩ := hround x s m hs (by omega)
    rw [iterate_eq hbody, run_bind_done hrun]
    cases r with
    | inr b => exact ⟨b, s₁, m₁, t₁ ++ [], rfl, huses.mono (Nat.le_add_left n n)⟩
    | inl y =>
      have hbound := huses.bound
      rcases huses.inOrder with rfl | rfl
      · have hlt := hbody x _ y (by rw [hrun])
        rw [hrun] at hlt
        simp only [List.length_append, List.length_replicate] at hlt
        obtain ⟨b, s₂, m₂, t₂, hrest, huses₂⟩ := ih s₁.length (by omega) y s₁ rfl m₁ huses.good hm
        refine ⟨b, s₂, m₂, t₁ ++ t₂, by simp only [hrest], { huses₂ with shorter := ?_ }⟩
        exact Nat.le_trans huses₂.shorter huses.shorter
      · obtain ⟨b, m₂, t₂, hrest, hle, hbound₂⟩ := hlast y m₁ (by omega)
        have hfewer := huses.fewer
        refine ⟨b, [], m₂, t₁ ++ t₂, by simp only [List.nil_append, hrest],
          ⟨huses.good, huses.shorter, .inr rfl, by omega, by omega⟩⟩

end Settling

/-! ## Programs that leave nothing to be seen -/

/-- The program leaves no event of which the observer keeps something. -/
def Silent {A E α ω : Type} (obs : E → Option ω) (p : Prog A E α) : Prop :=
  ∀ script, (p script).trace.filterMap obs = []

section Silence

variable {A E α β σ ω : Type} {obs : E → Option ω}

theorem silent_pure (a : α) : Silent obs (pure a : Prog A E α) := fun _ => rfl

theorem silent_fail : Silent obs (fail : Prog A E α) := fun _ => rfl

theorem silent_emit {e : E} (h : obs e = none) : Silent obs (emit e : Prog A E Unit) := by
  intro script
  show [e].filterMap obs = []
  simp [h]

theorem silent_perform {event : A → E} {result : A → Option α} (h : ∀ a, obs (event a) = none) :
    Silent obs (perform event result) := by
  intro script
  cases script with
  | nil => rfl
  | cons a rest =>
    rw [perform]
    cases result a <;> simp [h]

theorem silent_bind {p : Prog A E α} {k : α → Prog A E β} (hp : Silent obs p)
    (hk : ∀ a, Silent obs (k a)) : Silent obs (p >>= k) := by
  intro script
  have hseen := hp script
  rcases run_bind_cases p k script with
    ⟨a, rest, t, hrun, h⟩ | ⟨rest, t, hrun, h⟩ | ⟨rest, t, hrun, h⟩ <;>
    rw [hrun] at hseen <;> rw [h]
  · rw [List.filterMap_append, hseen]
    exact hk a rest
  · exact hseen
  · exact hseen

theorem silent_attempt {p : Prog A E α} (hp : Silent obs p) : Silent obs (attempt p) := by
  intro script
  have hseen := hp script
  rcases run_attempt_cases p script with
    ⟨a, rest, t, hrun, h⟩ | ⟨rest, t, hrun, h⟩ | ⟨rest, t, hrun, h⟩ <;>
    rw [hrun] at hseen <;> rw [h] <;> exact hseen

theorem silent_iterate {body : σ → Prog A E (σ ⊕ β)} (h : ∀ x, Silent obs (body x)) (x : σ) :
    Silent obs (iterate body x) := by
  have hfuel : ∀ fuel x, Silent obs (iterateFor body fuel x) := by
    intro fuel
    induction fuel with
    | zero => exact fun x script => rfl
    | succ fuel ih =>
      intro x
      rw [iterateFor_succ]
      refine silent_bind (h x) (fun r => ?_)
      cases r with
      | inl y => exact ih y
      | inr b => exact silent_pure b
  exact fun script => hfuel _ x script

end Silence

end Scripted
