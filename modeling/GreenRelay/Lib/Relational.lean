/-
Two runs side by side.

A program may run against two environments, each with its own monitor, and an
observer may see a part of what it does.  `RelTriple` relates the two runs: from
states in `P` they show the observer the same, and their values and the states
they reach are in `Q`.  A run whose script has ended shows an initial part of
what the other one shows, so a run is compared with the other as far as it goes.

The rules follow the construction of programs.  Where the two runs do not keep
in step, `rel_of_silent` relates them by what each of them does alone.
-/
import GreenRelay.Lib.Scripted

namespace Scripted

section Agreement

variable {E ω : Type}

/-- What the observer sees of a trace. -/
def seen (obs : E → Option ω) (t : List E) : List ω := t.filterMap obs

theorem seen_append (obs : E → Option ω) (t u : List E) :
    seen obs (t ++ u) = seen obs t ++ seen obs u := List.filterMap_append

/-- How two runs may end, each given by its outcome, its trace and the state in
which its monitor is. -/
inductive Agrees {α β S T : Type} (obs : E → Option ω) (Q : α → β → S → T → Prop)
    (R : S → T → Prop) : Outcome α → List E → S → Outcome β → List E → T → Prop where
  | done {a : α} {b : β} {t u : List E} {x : S} {y : T} (hseen : seen obs t = seen obs u)
      (h : Q a b x y) : Agrees obs Q R (.done a) t x (.done b) u y
  | failed {t u : List E} {x : S} {y : T} (hseen : seen obs t = seen obs u) (h : R x y) :
      Agrees obs Q R .failed t x .failed u y
  | cutLeft {t u : List E} {x : S} {y : T} {outcome : Outcome β}
      (hseen : seen obs t <+: seen obs u) : Agrees obs Q R .cut t x outcome u y
  | cutRight {t u : List E} {x : S} {y : T} {outcome : Outcome α}
      (hseen : seen obs u <+: seen obs t) : Agrees obs Q R outcome t x .cut u y

variable {α β S T : Type} {obs : E → Option ω} {Q Q' : α → β → S → T → Prop}
  {R R' : S → T → Prop}

theorem Agrees.mono {o : Outcome α} {p : Outcome β} {t u : List E} {x : S} {y : T}
    (h : Agrees obs Q R o t x p u y) (hQ : ∀ a b x y, Q a b x y → Q' a b x y)
    (hR : ∀ x y, R x y → R' x y) : Agrees obs Q' R' o t x p u y := by
  cases h with
  | done hseen h => exact .done hseen (hQ _ _ _ _ h)
  | failed hseen h => exact .failed hseen (hR _ _ h)
  | cutLeft hseen => exact .cutLeft hseen
  | cutRight hseen => exact .cutRight hseen

/-- What was shown alike before does not matter. -/
theorem Agrees.after {o : Outcome α} {p : Outcome β} {t t' u u' : List E} {x : S} {y : T}
    (hseen : seen obs t = seen obs u) (h : Agrees obs Q R o t' x p u' y) :
    Agrees obs Q R o (t ++ t') x p (u ++ u') y := by
  cases h with
  | done h' h => exact .done (by rw [seen_append, seen_append, hseen, h']) h
  | failed h' h => exact .failed (by rw [seen_append, seen_append, hseen, h']) h
  | cutLeft h' =>
    refine .cutLeft ?_
    rw [seen_append, seen_append, hseen]
    exact List.prefix_append_right_inj _ |>.mpr h'
  | cutRight h' =>
    refine .cutRight ?_
    rw [seen_append, seen_append, hseen]
    exact List.prefix_append_right_inj _ |>.mpr h'

end Agreement

/-! ## Relational triples -/

def RelTriple {A E S T α β ω : Type} (M : Monitor E S) (N : Monitor E T) (obs : E → Option ω)
    (P : S → T → Prop) (p : Prog A E α) (q : Prog A E β) (Q : α → β → S → T → Prop)
    (R : S → T → Prop) : Prop :=
  ∀ script₁ script₂ x y, P x y → ∀ x' y',
    M.Path x (p script₁).trace x' → N.Path y (q script₂).trace y' →
      Agrees obs Q R (p script₁).outcome (p script₁).trace x'
        (q script₂).outcome (q script₂).trace y'

section Rules

variable {A E S T α β γ δ ω : Type} {M : Monitor E S} {N : Monitor E T} {obs : E → Option ω}
  {P P' : S → T → Prop} {R R' : S → T → Prop} {Q Q' : α → β → S → T → Prop}

theorem rel_pure {a : α} {b : β} (h : ∀ x y, P x y → Q a b x y) :
    RelTriple M N obs P (pure a : Prog A E α) (pure b : Prog A E β) Q R := by
  intro script₁ script₂ x y hxy x' y' hx hy
  obtain rfl : x = x' := hx
  obtain rfl : y = y' := hy
  exact .done rfl (h x y hxy)

theorem rel_fail (h : ∀ x y, P x y → R x y) :
    RelTriple M N obs P (fail : Prog A E α) (fail : Prog A E β) Q R := by
  intro script₁ script₂ x y hxy x' y' hx hy
  obtain rfl : x = x' := hx
  obtain rfl : y = y' := hy
  exact .failed rfl (h x y hxy)

theorem rel_emit {e f : E} {Q : Unit → Unit → S → T → Prop} (hobs : obs e = obs f)
    (h : ∀ x y x' y', P x y → M.step x e x' → N.step y f y' → Q () () x' y') :
    RelTriple M N obs P (emit e : Prog A E Unit) (emit f : Prog A E Unit) Q R := by
  intro script₁ script₂ x y hxy x' y' hx hy
  obtain ⟨m, hm, rfl⟩ := hx
  obtain ⟨n, hn, rfl⟩ := hy
  refine .done ?_ (h x y m n hxy hm hn)
  show [e].filterMap obs = [f].filterMap obs
  simp only [List.filterMap_cons, hobs]

/-- An operation on both sides.  The two environments have to give it answers
that look alike. -/
theorem rel_perform {event₁ : A → E} {event₂ : A → E} {result₁ : A → Option α}
    {result₂ : A → Option β}
    (h : ∀ a b x y x' y', P x y → M.step x (event₁ a) x' → N.step y (event₂ b) y' →
      obs (event₁ a) = obs (event₂ b) ∧
        match result₁ a, result₂ b with
        | some v, some w => Q v w x' y'
        | none, none => R x' y'
        | _, _ => False) :
    RelTriple M N obs P (perform event₁ result₁) (perform event₂ result₂) Q R := by
  intro script₁ script₂ x y hxy x' y' hx hy
  cases script₁ with
  | nil => exact .cutLeft List.nil_prefix
  | cons a rest₁ =>
    cases script₂ with
    | nil => exact .cutRight List.nil_prefix
    | cons b rest₂ =>
      -- Whatever the results are, each side has left its one event.
      have hsides : ∃ m n, M.step x (event₁ a) m ∧ N.step y (event₂ b) n ∧ m = x' ∧ n = y' := by
        have hleft : (perform event₁ result₁ (a :: rest₁)).trace = [event₁ a] := by
          rw [perform]
          cases result₁ a <;> rfl
        have hright : (perform event₂ result₂ (b :: rest₂)).trace = [event₂ b] := by
          rw [perform]
          cases result₂ b <;> rfl
        rw [hleft] at hx
        rw [hright] at hy
        obtain ⟨m, hm, hmx⟩ := hx
        obtain ⟨n, hn, hny⟩ := hy
        exact ⟨m, n, hm, hn, hmx, hny⟩
      obtain ⟨m, n, hm, hn, rfl, rfl⟩ := hsides
      obtain ⟨hobs, hpost⟩ := h a b x y m n hxy hm hn
      have hseen : seen obs [event₁ a] = seen obs [event₂ b] := by
        simp only [seen, List.filterMap_cons, hobs]
      simp only [perform]
      cases hv : result₁ a with
      | some v =>
        cases hw : result₂ b with
        | some w =>
          rw [hv, hw] at hpost
          exact .done hseen hpost
        | none =>
          rw [hv, hw] at hpost
          cases hpost
      | none =>
        cases hw : result₂ b with
        | some w =>
          rw [hv, hw] at hpost
          cases hpost
        | none =>
          rw [hv, hw] at hpost
          exact .failed hseen hpost

theorem rel_bind {p : Prog A E α} {q : Prog A E β} {k : α → Prog A E γ} {l : β → Prog A E δ}
    {U : γ → δ → S → T → Prop} (hp : RelTriple M N obs P p q Q R)
    (hk : ∀ a b, RelTriple M N obs (Q a b) (k a) (l b) U R) :
    RelTriple M N obs P (p >>= k) (q >>= l) U R := by
  intro script₁ script₂ x y hxy x' y' hx hy
  have hfirst := hp script₁ script₂ x y hxy
  rcases run_bind_cases p k script₁ with
    ⟨a, rest₁, t, hp₁, hrun₁⟩ | ⟨rest₁, t, hp₁, hrun₁⟩ | ⟨rest₁, t, hp₁, hrun₁⟩ <;>
    rw [hrun₁] at hx ⊢ <;> rw [hp₁] at hfirst <;>
    rcases run_bind_cases q l script₂ with
      ⟨b, rest₂, u, hq₂, hrun₂⟩ | ⟨rest₂, u, hq₂, hrun₂⟩ | ⟨rest₂, u, hq₂, hrun₂⟩ <;>
    rw [hrun₂] at hy ⊢ <;> rw [hq₂] at hfirst
  · obtain ⟨m, hm, hx⟩ := M.path_append.mp hx
    obtain ⟨n, hn, hy⟩ := N.path_append.mp hy
    cases hfirst m n hm hn with
    | done hseen h => exact (hk a b rest₁ rest₂ m n h x' y' hx hy).after hseen
  · obtain ⟨m, hm, hx⟩ := M.path_append.mp hx
    cases hfirst m y' hm hy
  · obtain ⟨m, hm, hx⟩ := M.path_append.mp hx
    cases hfirst m y' hm hy with
    | cutRight hseen =>
      refine .cutRight ?_
      rw [seen_append]
      exact hseen.trans (List.prefix_append _ _)
  · obtain ⟨n, hn, hy⟩ := N.path_append.mp hy
    cases hfirst x' n hx hn
  · cases hfirst x' y' hx hy with
    | failed hseen h => exact .failed hseen h
  · cases hfirst x' y' hx hy with
    | cutRight hseen => exact .cutRight hseen
  · obtain ⟨n, hn, hy⟩ := N.path_append.mp hy
    cases hfirst x' n hx hn with
    | cutLeft hseen =>
      refine .cutLeft ?_
      rw [seen_append]
      exact hseen.trans (List.prefix_append _ _)
  · cases hfirst x' y' hx hy with
    | cutLeft hseen => exact .cutLeft hseen
  · cases hfirst x' y' hx hy with
    | cutLeft hseen => exact .cutLeft hseen
    | cutRight hseen => exact .cutRight hseen

theorem rel_conseq {p : Prog A E α} {q : Prog A E β} (h : RelTriple M N obs P' p q Q' R')
    (hP : ∀ x y, P x y → P' x y) (hQ : ∀ a b x y, Q' a b x y → Q a b x y)
    (hR : ∀ x y, R' x y → R x y) : RelTriple M N obs P p q Q R :=
  fun script₁ script₂ x y hxy x' y' hx hy =>
    (h script₁ script₂ x y (hP x y hxy) x' y' hx hy).mono hQ hR

theorem rel_pre {p : Prog A E α} {q : Prog A E β} (h : RelTriple M N obs P' p q Q R)
    (hP : ∀ x y, P x y → P' x y) : RelTriple M N obs P p q Q R :=
  rel_conseq h hP (fun _ _ _ _ h => h) (fun _ _ h => h)

theorem rel_post {p : Prog A E α} {q : Prog A E β} (h : RelTriple M N obs P p q Q' R)
    (hQ : ∀ a b x y, Q' a b x y → Q a b x y) : RelTriple M N obs P p q Q R :=
  rel_conseq h (fun _ _ h => h) hQ (fun _ _ h => h)

/-- A fact that does not depend on the states may be assumed on the way. -/
theorem rel_pure_pre {φ : Prop} {p : Prog A E α} {q : Prog A E β}
    (h : φ → RelTriple M N obs P p q Q R) :
    RelTriple M N obs (fun x y => φ ∧ P x y) p q Q R :=
  fun script₁ script₂ x y hxy => h hxy.1 script₁ script₂ x y hxy.2

def Outcome.caught {α : Type} : Outcome α → Outcome (Option α)
  | .done a => .done (some a)
  | .failed => .done none
  | .cut => .cut

theorem attempt_run (p : Prog A E α) (script : List A) :
    (attempt p script).outcome = (p script).outcome.caught ∧
      (attempt p script).trace = (p script).trace := by
  rcases run_attempt_cases p script with
    ⟨a, rest, t, hp, hrun⟩ | ⟨rest, t, hp, hrun⟩ | ⟨rest, t, hp, hrun⟩ <;> rw [hp, hrun] <;>
    exact ⟨rfl, rfl⟩

/-- What an attempt leaves, a value on both sides or none on both. -/
def attempted (Q : α → β → S → T → Prop) (R : S → T → Prop) :
    Option α → Option β → S → T → Prop
  | some a, some b => Q a b
  | none, none => R
  | _, _ => fun _ _ => False

theorem rel_attempt {p : Prog A E α} {q : Prog A E β} (h : RelTriple M N obs P p q Q R) :
    RelTriple M N obs P (attempt p) (attempt q) (attempted Q R) R' := by
  intro script₁ script₂ x y hxy x' y' hx hy
  obtain ⟨houtcome₁, htrace₁⟩ := attempt_run p script₁
  obtain ⟨houtcome₂, htrace₂⟩ := attempt_run q script₂
  rw [htrace₁] at hx
  rw [htrace₂] at hy
  rw [houtcome₁, htrace₁, houtcome₂, htrace₂]
  have hinner := h script₁ script₂ x y hxy x' y' hx hy
  generalize (p script₁).outcome = o at hinner ⊢
  generalize (q script₂).outcome = o' at hinner ⊢
  cases hinner with
  | done hseen h => exact .done hseen h
  | failed hseen h => exact .done hseen h
  | cutLeft hseen => exact .cutLeft hseen
  | cutRight hseen => exact .cutRight hseen

/-- What follows two attempts, by how both of them went. -/
theorem rel_attempt_bind {p : Prog A E α} {q : Prog A E β} {k : Option α → Prog A E γ}
    {l : Option β → Prog A E δ} {U : γ → δ → S → T → Prop} (h : RelTriple M N obs P p q Q R)
    (hsome : ∀ a b, RelTriple M N obs (Q a b) (k (some a)) (l (some b)) U R')
    (hnone : RelTriple M N obs R (k none) (l none) U R') :
    RelTriple M N obs P (attempt p >>= k) (attempt q >>= l) U R' := by
  apply rel_bind (rel_attempt h)
  intro o o'
  cases o with
  | none =>
    cases o' with
    | none => exact hnone
    | some b => exact fun _ _ _ _ hfalse => hfalse.elim
  | some a =>
    cases o' with
    | none => exact fun _ _ _ _ hfalse => hfalse.elim
    | some b => exact hsome a b

/-- What a round of two loops leaves, a loop state on both sides or a value on
both. -/
def rounded {σ τ : Type} (I : σ → τ → S → T → Prop) (Q : α → β → S → T → Prop) :
    σ ⊕ α → τ ⊕ β → S → T → Prop
  | .inl c, .inl d => I c d
  | .inr a, .inr b => Q a b
  | _, _ => fun _ _ => False

/-- The rule of two loops that go through their rounds in step. -/
theorem rel_iterate {σ τ : Type} {body₁ : σ → Prog A E (σ ⊕ α)} {body₂ : τ → Prog A E (τ ⊕ β)}
    {I : σ → τ → S → T → Prop}
    (h : ∀ c d, RelTriple M N obs (I c d) (body₁ c) (body₂ d) (rounded I Q) R) (c : σ) (d : τ) :
    RelTriple M N obs (I c d) (iterate body₁ c) (iterate body₂ d) Q R := by
  have hfuel : ∀ fuel₁ fuel₂ c d,
      RelTriple M N obs (I c d) (iterateFor body₁ fuel₁ c) (iterateFor body₂ fuel₂ d) Q R := by
    intro fuel₁
    induction fuel₁ with
    | zero => exact fun fuel₂ c d script₁ script₂ x y _ x' y' _ _ => .cutLeft List.nil_prefix
    | succ fuel₁ ih =>
      intro fuel₂ c d
      cases fuel₂ with
      | zero => exact fun script₁ script₂ x y _ x' y' _ _ => .cutRight List.nil_prefix
      | succ fuel₂ =>
        rw [iterateFor_succ, iterateFor_succ]
        refine rel_bind (h c d) (fun r s => ?_)
        cases r with
        | inl c' =>
          cases s with
          | inl d' => exact ih fuel₂ c' d'
          | inr b => exact fun _ _ _ _ hfalse => hfalse.elim
        | inr a =>
          cases s with
          | inl d' => exact fun _ _ _ _ hfalse => hfalse.elim
          | inr b => exact rel_pure (fun _ _ h => h)
  exact fun script₁ script₂ => hfuel _ _ c d script₁ script₂

/-- Two programs that show nothing need not keep in step, if the effect of each
is a function of the state it starts from. -/
theorem rel_of_silent {p : Prog A E α} {q : Prog A E β} {f : S → α × S} {g : T → β × T}
    (hp : Silent obs p) (hq : Silent obs q)
    (hf : ∀ x, Triple M (fun x' => x' = x) p (fun a x' => (a, x') = f x) (fun _ => False))
    (hg : ∀ y, Triple N (fun y' => y' = y) q (fun b y' => (b, y') = g y) (fun _ => False))
    (h : ∀ x y, P x y → Q (f x).1 (g y).1 (f x).2 (g y).2) :
    RelTriple M N obs P p q Q R := by
  intro script₁ script₂ x y hxy x' y' hx hy
  have hleft := (hf x script₁ x rfl).2 x' hx
  have hright := (hg y script₂ y rfl).2 y' hy
  have hpq := h x y hxy
  have hseen₁ : seen obs (p script₁).trace = [] := hp script₁
  have hseen₂ : seen obs (q script₂).trace = [] := hq script₂
  cases ho : (p script₁).outcome with
  | cut => exact .cutLeft (by rw [hseen₁]; exact List.nil_prefix)
  | failed => rw [ho] at hleft; exact hleft.elim
  | done a =>
    cases ho' : (q script₂).outcome with
    | cut => exact .cutRight (by rw [hseen₂]; exact List.nil_prefix)
    | failed => rw [ho'] at hright; exact hright.elim
    | done b =>
      rw [ho] at hleft
      rw [ho'] at hright
      rw [← hleft, ← hright] at hpq
      exact .done (by rw [hseen₁, hseen₂]) hpq

end Rules

/-! ## Programs that run in lockstep -/

/-- The two runs return the same value and keep `I`; where they fail they leave
`R`. -/
def Lockstep {A E S T α ω : Type} (M : Monitor E S) (N : Monitor E T) (obs : E → Option ω)
    (I R : S → T → Prop) (p q : Prog A E α) : Prop :=
  RelTriple M N obs I p q (fun a b x y => a = b ∧ I x y) R

section Locked

variable {A E S T α β σ ω : Type} {M : Monitor E S} {N : Monitor E T} {obs : E → Option ω}
  {I R : S → T → Prop}

theorem lockstep_pure (a : α) : Lockstep M N obs I R (pure a : Prog A E α) (pure a) :=
  rel_pure (fun _ _ h => ⟨rfl, h⟩)

theorem lockstep_bind {p q : Prog A E α} {k l : α → Prog A E β}
    (hp : Lockstep M N obs I R p q) (hk : ∀ a, Lockstep M N obs I R (k a) (l a)) :
    Lockstep M N obs I R (p >>= k) (q >>= l) :=
  rel_bind hp (fun a _ => rel_pure_pre (fun hab => hab ▸ hk a))

theorem lockstep_emit {e f : E} (hobs : obs e = obs f)
    (h : ∀ x y x' y', I x y → M.step x e x' → N.step y f y' → I x' y') :
    Lockstep M N obs I R (emit e : Prog A E Unit) (emit f) :=
  rel_emit hobs (fun x y x' y' hxy hx hy => ⟨rfl, h x y x' y' hxy hx hy⟩)

/-- An operation that cannot fail. -/
theorem lockstep_perform {event₁ event₂ : A → E} {result : A → α}
    (h : ∀ a b x y x' y', I x y → M.step x (event₁ a) x' → N.step y (event₂ b) y' →
      obs (event₁ a) = obs (event₂ b) ∧ result a = result b ∧ I x' y') :
    Lockstep M N obs I R (perform event₁ (fun a => some (result a)))
      (perform event₂ (fun a => some (result a))) :=
  rel_perform h

theorem lockstep_iterate {body₁ body₂ : σ → Prog A E (σ ⊕ α)}
    (h : ∀ c, Lockstep M N obs I R (body₁ c) (body₂ c)) (c : σ) :
    Lockstep M N obs I R (iterate body₁ c) (iterate body₂ c) := by
  refine rel_conseq (rel_iterate (I := fun c d x y => c = d ∧ I x y) (fun c d => ?_) c c)
    (fun _ _ hxy => ⟨rfl, hxy⟩) (fun _ _ _ _ h => h) (fun _ _ h => h)
  refine rel_pure_pre (fun hcd => ?_)
  subst hcd
  refine rel_post (h c) (fun r s x y hrs => ?_)
  obtain ⟨rfl, hxy⟩ := hrs
  cases r with
  | inl c' => exact ⟨rfl, hxy⟩
  | inr a => exact ⟨rfl, hxy⟩

end Locked

/-! ## Runs that show the same -/

/-- As far as both of them go, the runs show the observer the same, and where
neither is cut short they end alike. -/
def SameSeen {A E α ω : Type} (obs : E → Option ω) (r s : Run A E α) : Prop :=
  (r.outcome = .cut ∧ seen obs r.trace <+: seen obs s.trace) ∨
    (s.outcome = .cut ∧ seen obs s.trace <+: seen obs r.trace) ∨
    (r.outcome = s.outcome ∧ seen obs r.trace = seen obs s.trace)

theorem RelTriple.sameSeen {A E S T α ω : Type} {M : Monitor E S} {N : Monitor E T}
    {obs : E → Option ω} {P R : S → T → Prop} {Q : α → α → S → T → Prop} {p q : Prog A E α}
    (h : RelTriple M N obs P p q Q R) (hQ : ∀ a b x y, Q a b x y → a = b)
    {script₁ script₂ : List A} {x x' : S} {y y' : T} (hxy : P x y)
    (hx : M.Path x (p script₁).trace x') (hy : N.Path y (q script₂).trace y') :
    SameSeen obs (p script₁) (q script₂) := by
  have hagrees := h script₁ script₂ x y hxy x' y' hx hy
  unfold SameSeen
  generalize (p script₁).outcome = o at hagrees
  generalize (q script₂).outcome = o' at hagrees
  cases hagrees with
  | done hseen hab => exact .inr (.inr ⟨congrArg _ (hQ _ _ _ _ hab), hseen⟩)
  | failed hseen _ => exact .inr (.inr ⟨rfl, hseen⟩)
  | cutLeft hseen => exact .inl ⟨rfl, hseen⟩
  | cutRight hseen => exact .inr (.inl ⟨rfl, hseen⟩)

end Scripted
