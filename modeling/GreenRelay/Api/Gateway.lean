/-
The way of a request to its handler.

Authentication comes first and the rate limit second, and many requests are under
way at once.  The requests are numbered in the order of their arrival: request `n`
is the attempt `n` of the authentications, and its stage says how far it has come.
`governed` says what holds of all of them together, in any interleaving: the two
counters of refusals count each refusal once, only the holder of a stored key comes
past the first gate, and the second gate decides as a limiter that was asked about
exactly those, each under the limit of its key.
-/
import GreenRelay.Api.Send
import GreenRelay.Auth.Accepted
import GreenRelay.Limiter.SlidingWindow

namespace GreenRelay
namespace Api
namespace Gateway

open Auth (Digest ApiKeyId AuthContext)
open Limiter (Check States RateDecision effectiveLimit)

/-! ## Requests -/

/-- The two headers that can carry a key, where they are readable. -/
structure Headers where
  xApiKey : Option String
  authorization : Option String
  deriving DecidableEq, Repr

def stripToken (token : String) (value : String) : Option String :=
  (Text.stripPrefix token.toList value.toList).map String.ofList

/-- An `x-api-key` that is not empty comes before `Authorization`. -/
def extractApiKey (headers : Headers) : Option String :=
  match headers.xApiKey.filter (fun v => v ≠ "") with
  | some value => some value
  | none => headers.authorization.map (fun value =>
      ((stripToken "Bearer " value).or (stripToken "bearer " value)).getD value)

/-- The limit for all keys that have none of their own, and the window. -/
structure Policy where
  sha256 : Digest
  victims : States → States
  defaultRateLimit : Nat
  rateWindow : Nat

inductive Stage where
  | authenticating
  /-- Counted, and answered 401. -/
  | refused
  /-- Answered 500. -/
  | failed
  /-- About to ask the limiter. -/
  | limiting (call : Check)
  | rejected (call : Check) (retryAfterSecs : Nat)
  /-- Counted, and answered 429. -/
  | limited (call : Check) (retryAfterSecs : Nat)
  | handling (call : Check) (remaining : Nat)

def Stage.isRefused : Stage → Bool
  | .refused => true
  | _ => false

def Stage.isLimited : Stage → Bool
  | .limited _ _ => true
  | _ => false

/-- What the limiter was asked, or is about to be. -/
def Stage.call : Stage → Option Check
  | .limiting call => some call
  | .rejected call _ => some call
  | .limited call _ => some call
  | .handling call _ => some call
  | _ => none

/-- What the limiter was asked and what it said. -/
def Stage.ruling : Stage → Option (Check × RateDecision)
  | .rejected call retryAfterSecs => some (call, .reject retryAfterSecs)
  | .limited call retryAfterSecs => some (call, .reject retryAfterSecs)
  | .handling call remaining => some (call, .allow remaining)
  | _ => none

/-- The answer of the middleware, with its `Retry-After` and its challenge. -/
structure GateAnswer where
  status : Nat
  retryAfter : Option Nat
  challenge : Option String
  body : ApiError
  deriving DecidableEq, Repr

def unauthorizedResponse : GateAnswer := ⟨401, none, some "ApiKey, Bearer", ⟨"unauthorized", []⟩⟩

def jsonWithRetryAfter (status retryAfterSecs : Nat) (body : ApiError) : GateAnswer :=
  ⟨status, some retryAfterSecs, none, body⟩

def Stage.answer : Stage → Option GateAnswer
  | .refused => some unauthorizedResponse
  | .failed => some ⟨500, none, none, ⟨"internal server error", []⟩⟩
  | .limited _ retryAfterSecs =>
    some (jsonWithRetryAfter 429 retryAfterSecs ⟨"rate limit exceeded", []⟩)
  | _ => none

structure State where
  auth : Auth.State
  limiter : States
  authFailures : Nat
  rateLimited : Nat
  stages : List Stage
  /-- The requests the limiter has decided on, in that order. -/
  ruled : List (Nat × Check × RateDecision)

def State.enter (s : State) (n : Nat) (stage : Stage) : State :=
  { s with stages := s.stages.set n stage }

inductive Act where
  | arrive (headers : Headers)
  /-- A step of an authentication that has begun, or of the administration. -/
  | auth (act : Auth.Act)
  | refuse (n : Nat)
  | fail (n : Nat)
  | limit (n : Nat)
  | check (n : Nat)
  | reject (n : Nat)

def begins : Auth.Act → Bool
  | .begin _ _ => true
  | _ => false

def State.reply (s : State) (n : Nat) : Option Auth.Reply :=
  (s.auth.attempts n).bind (fun a =>
    match a.phase with
    | .done answer => some answer
    | _ => none)

/-- `rate_limit_middleware` up to the call of the limiter. -/
def Policy.quota (p : Policy) (context : AuthContext) (now : Nat) : Check :=
  ⟨context.identifier,
    ⟨(effectiveLimit context.customRateLimit p.defaultRateLimit).1, p.rateWindow⟩, now⟩

def afterCheck (call : Check) : RateDecision → Stage
  | .allow remaining => .handling call remaining
  | .reject retryAfterSecs => .rejected call retryAfterSecs

def checkRequest (p : Policy) (s : State) (n : Nat) (call : Check) : State :=
  let (limiter, decision) := Limiter.check p.victims s.limiter call
  { s.enter n (afterCheck call decision) with
    limiter := limiter
    ruled := s.ruled ++ [(n, call, decision)] }

def step (p : Policy) (s : State) : Act → Option State
  | .arrive headers =>
    (Auth.step p.sha256 s.auth (.begin s.stages.length ((extractApiKey headers).getD ""))).map
      (fun auth => { s with auth := auth, stages := s.stages ++ [.authenticating] })
  | .auth act =>
    if begins act then none
    else (Auth.step p.sha256 s.auth act).map (fun auth => { s with auth := auth })
  | .refuse n =>
    match s.stages[n]?, s.reply n with
    | some .authenticating, some (.refused _) =>
      some { s.enter n .refused with authFailures := s.authFailures + 1 }
    | _, _ => none
  | .fail n =>
    match s.stages[n]?, s.reply n with
    | some .authenticating, some .serverError => some (s.enter n .failed)
    | _, _ => none
  | .limit n =>
    match s.stages[n]?, s.reply n with
    | some .authenticating, some (.next _ context) =>
      some (s.enter n (.limiting (p.quota context s.auth.now)))
    | _, _ => none
  | .check n =>
    match s.stages[n]? with
    | some (.limiting call) => some (checkRequest p s n call)
    | _ => none
  | .reject n =>
    match s.stages[n]? with
    | some (.rejected call retryAfterSecs) =>
      some { s.enter n (.limited call retryAfterSecs) with rateLimited := s.rateLimited + 1 }
    | _ => none

structure Starting (s : State) : Prop where
  auth : Auth.Starting s.auth
  limiter : s.limiter = ∅
  authFailures : s.authFailures = 0
  rateLimited : s.rateLimited = 0
  stages : s.stages = []
  ruled : s.ruled = []

def gateway (p : Policy) : Machine State Act := ⟨Starting, step p⟩

inductive Stepped (p : Policy) (s : State) : Act → State → Prop where
  | arrive {headers : Headers} {auth : Auth.State}
    (h : Auth.step p.sha256 s.auth
      (.begin s.stages.length ((extractApiKey headers).getD "")) = some auth) :
    Stepped p s (.arrive headers) { s with auth := auth, stages := s.stages ++ [.authenticating] }
  | auth {act : Auth.Act} {auth : Auth.State} (h : Auth.step p.sha256 s.auth act = some auth) :
    Stepped p s (.auth act) { s with auth := auth }
  | refuse {n : Nat} (hn : s.stages[n]? = some .authenticating) :
    Stepped p s (.refuse n) { s.enter n .refused with authFailures := s.authFailures + 1 }
  | fail {n : Nat} (hn : s.stages[n]? = some .authenticating) :
    Stepped p s (.fail n) (s.enter n .failed)
  | limit {n : Nat} {id : ApiKeyId} {context : AuthContext}
    (hn : s.stages[n]? = some .authenticating) (hreply : s.reply n = some (.next id context)) :
    Stepped p s (.limit n) (s.enter n (.limiting (p.quota context s.auth.now)))
  | check {n : Nat} {call : Check} (hn : s.stages[n]? = some (.limiting call)) :
    Stepped p s (.check n) (checkRequest p s n call)
  | reject {n retryAfterSecs : Nat} {call : Check}
    (hn : s.stages[n]? = some (.rejected call retryAfterSecs)) :
    Stepped p s (.reject n)
      { s.enter n (.limited call retryAfterSecs) with rateLimited := s.rateLimited + 1 }

theorem stepped_of_step {p : Policy} {s s' : State} {act : Act} (h : step p s act = some s') :
    Stepped p s act s' := by
  cases act with
  | arrive headers =>
    obtain ⟨auth, hauth, rfl⟩ := Option.map_eq_some_iff.mp h
    exact .arrive hauth
  | auth act =>
    simp only [step] at h
    split at h
    · cases h
    · obtain ⟨auth, hauth, rfl⟩ := Option.map_eq_some_iff.mp h
      exact .auth hauth
  | refuse n =>
    simp only [step] at h
    split at h <;> cases h
    exact .refuse ‹_›
  | fail n =>
    simp only [step] at h
    split at h <;> cases h
    exact .fail ‹_›
  | limit n =>
    simp only [step] at h
    split at h <;> cases h
    exact .limit ‹_› ‹_›
  | check n =>
    simp only [step] at h
    split at h <;> cases h
    exact .check ‹_›
  | reject n =>
    simp only [step] at h
    split at h <;> cases h
    exact .reject ‹_›

/-! ## The limiter behind the gate -/

section Ruling

/-- The limiter after some calls. -/
def asked (victims : States → States) (calls : List Check) : States :=
  calls.foldl (fun states call => (Limiter.check victims states call).1) ∅

theorem outputs_append (victims : States → States) (states : States) (calls : List Check)
    (call : Check) :
    Cache.outputs Limiter.windows (Limiter.mokaRetention victims) states (calls ++ [call]) =
      Cache.outputs Limiter.windows (Limiter.mokaRetention victims) states calls ++
        [(Limiter.check victims
          (calls.foldl (fun states call => (Limiter.check victims states call).1) states)
          call).2] := by
  induction calls generalizing states with
  | nil => rfl
  | cons c calls ih =>
    rw [List.cons_append, Cache.outputs, ih, Cache.outputs, List.cons_append]
    rfl

/-- One more call, and one more decision. -/
theorem decisions_concat (victims : States → States) (calls : List Check) (call : Check) :
    Limiter.decisions victims (calls ++ [call]) =
      Limiter.decisions victims calls ++ [(Limiter.check victims (asked victims calls) call).2] :=
  outputs_append victims ∅ calls call

theorem asked_concat (victims : States → States) (calls : List Check) (call : Check) :
    asked victims (calls ++ [call]) = (Limiter.check victims (asked victims calls) call).1 := by
  rw [asked, List.foldl_append]
  rfl

end Ruling

/-! ## The invariant -/

/-- The authentication of request `n` has ended with a key, and `call` is what the
limiter is asked for it. -/
def Authorized (p : Policy) (auth : Auth.State) (n : Nat) (call : Check) : Prop :=
  ∃ a id context now, auth.attempts n = some a ∧ a.phase = .done (.next id context) ∧
    call = p.quota context now

structure Sound (p : Policy) (s : State) : Prop where
  credible : Auth.Credible s.auth
  authFailures : s.authFailures = s.stages.countP Stage.isRefused
  rateLimited : s.rateLimited = s.stages.countP Stage.isLimited
  authorized : ∀ n stage call, s.stages[n]? = some stage → stage.call = some call →
    Authorized p s.auth n call
  ruled : ∀ n ruling, (n, ruling) ∈ s.ruled ↔
    ∃ stage, s.stages[n]? = some stage ∧ stage.ruling = some ruling
  once : (s.ruled.map (·.1)).Nodup
  limiter : s.limiter = asked p.victims (s.ruled.map (·.2.1))
  decisions : s.ruled.map (·.2.2) = Limiter.decisions p.victims (s.ruled.map (·.2.1))

section Stages

variable {p : Policy} {s : State} {n m : Nat} {old stage : Stage}

theorem lookup_set (hn : s.stages[n]? = some old) :
    (s.stages.set n stage)[m]? = if m = n then some stage else s.stages[m]? := by
  obtain ⟨hlt, _⟩ := List.getElem?_eq_some_iff.mp hn
  by_cases hm : m = n
  · rw [if_pos hm, hm, List.getElem?_set_self hlt]
  · rw [if_neg hm, List.getElem?_set_ne (fun h => hm h.symm)]

/-- A count goes up by one where a request enters a stage that is counted. -/
theorem countP_enter (q : Stage → Bool) (hn : s.stages[n]? = some old) (hold : q old = false) :
    (s.stages.set n stage).countP q = s.stages.countP q + if q stage then 1 else 0 := by
  obtain ⟨hlt, heq⟩ := List.getElem?_eq_some_iff.mp hn
  rw [List.countP_set hlt, heq, hold]
  rfl

/-- An authentication that has ended stays as it is. -/
theorem attempts_done {sha256 : Digest} {a a' : Auth.State} {act : Auth.Act}
    {attempt : Auth.Attempt} {answer : Auth.Reply} (h : Auth.Stepped sha256 a act a')
    (ha : a.attempts n = some attempt) (hp : attempt.phase = .done answer) :
    a'.attempts n = some attempt := by
  have hset : ∀ {m : Nat} {b c : Auth.Attempt}, a.attempts m = some b →
      (∀ answer, b.phase ≠ .done answer) → (a.setAttempt m c).attempts n = some attempt := by
    intro m b c hb hne
    have hnm : n ≠ m := by
      intro hnm
      rw [← hnm, ha] at hb
      exact hne answer (Option.some.inj hb ▸ hp)
    exact (if_neg hnm).trans ha
  cases h with
  | @begin m presented hm =>
    have hnm : n ≠ m := by
      intro hnm
      rw [← hnm, ha] at hm
      cases hm
    exact (if_neg hnm).trans ha
  | get hb hphase => exact hset hb (fun answer h => by cases hphase.symm.trans h)
  | lookup ok hb hphase => exact hset hb (fun answer h => by cases hphase.symm.trans h)
  | insert hb hphase => exact hset hb (fun answer h => by cases hphase.symm.trans h)
  | authenticate hb hphase => exact hset hb (fun answer h => by cases hphase.symm.trans h)
  | @invalidate m v j hv hphase => cases j <;> exact ha
  | tick | create | evict | revoke | identify | update | updateFailed | audit | auditFailed =>
    exact ha

theorem Authorized.step {sha256 : Digest} {a a' : Auth.State} {act : Auth.Act} {call : Check}
    (h : Authorized p a n call) (hstep : Auth.step sha256 a act = some a') :
    Authorized p a' n call := by
  obtain ⟨attempt, id, context, now, ha, hp, hcall⟩ := h
  exact ⟨attempt, id, context, now, attempts_done (Auth.stepped_of_step hstep) ha hp, hp, hcall⟩

theorem authorized_of_reply {id : ApiKeyId} {context : AuthContext}
    (h : s.reply n = some (.next id context)) (now : Nat) :
    Authorized p s.auth n (p.quota context now) := by
  obtain ⟨a, ha, hphase⟩ := Option.bind_eq_some_iff.mp h
  split at hphase
  · next answer hp =>
    rw [Option.some.inj hphase] at hp
    exact ⟨a, id, context, now, ha, hp, rfl⟩
  · cases hphase

end Stages

namespace Sound

variable {p : Policy} {s s' : State} {n : Nat} {old stage : Stage}

theorem authorized_enter (h : Sound p s) (hn : s.stages[n]? = some old)
    (hstage : ∀ call, stage.call = some call → Authorized p s.auth n call) :
    ∀ m st call, (s.stages.set n stage)[m]? = some st → st.call = some call →
      Authorized p s.auth m call := by
  intro m st call hst hcall
  rw [lookup_set hn] at hst
  split at hst
  · next hm =>
    cases hst
    exact hm ▸ hstage call hcall
  · exact h.authorized m st call hst hcall

/-- A stage with the same ruling as the one before. -/
theorem ruled_enter (h : Sound p s) (hn : s.stages[n]? = some old)
    (hsame : stage.ruling = old.ruling) (m : Nat) (ruling : Check × RateDecision) :
    (m, ruling) ∈ s.ruled ↔
      ∃ st, (s.stages.set n stage)[m]? = some st ∧ st.ruling = some ruling := by
  rw [h.ruled, lookup_set hn]
  by_cases hm : m = n
  · rw [if_pos hm, hm, hn]
    constructor
    · rintro ⟨st, hst, hr⟩
      cases hst
      exact ⟨stage, rfl, hsame.trans hr⟩
    · rintro ⟨st, hst, hr⟩
      cases hst
      exact ⟨old, rfl, hsame.symm.trans hr⟩
  · rw [if_neg hm]

/-- The stage that was entered had asked the limiter nothing new. -/
theorem enter (h : Sound p s) (stage : Stage) (hn : s.stages[n]? = some old)
    (hrefused : old.isRefused = false) (hlimited : old.isLimited = false)
    (hsame : stage.ruling = old.ruling)
    (hstage : ∀ call, stage.call = some call → Authorized p s.auth n call) :
    Sound p { s.enter n stage with
      authFailures := s.authFailures + if stage.isRefused then 1 else 0
      rateLimited := s.rateLimited + if stage.isLimited then 1 else 0 } where
  credible := h.credible
  authFailures := by
    show _ = (s.stages.set n stage).countP _
    rw [countP_enter _ hn hrefused, h.authFailures]
  rateLimited := by
    show _ = (s.stages.set n stage).countP _
    rw [countP_enter _ hn hlimited, h.rateLimited]
  authorized := h.authorized_enter hn hstage
  ruled := h.ruled_enter hn hsame
  once := h.once
  limiter := h.limiter
  decisions := h.decisions

theorem afterCheck_call (call : Check) (decision : RateDecision) :
    (afterCheck call decision).call = some call := by
  cases decision <;> rfl

theorem afterCheck_ruling (call : Check) (decision : RateDecision) :
    (afterCheck call decision).ruling = some (call, decision) := by
  cases decision <;> rfl

theorem afterCheck_uncounted (call : Check) (decision : RateDecision) :
    (afterCheck call decision).isRefused = false ∧
      (afterCheck call decision).isLimited = false := by
  cases decision <;> exact ⟨rfl, rfl⟩

/-- The limiter rules on a request once. -/
theorem check (h : Sound p s) {call : Check} (hn : s.stages[n]? = some (.limiting call)) :
    Sound p (checkRequest p s n call) := by
  have hnew : ∀ ruling, (n, ruling) ∉ s.ruled := by
    intro ruling hmem
    obtain ⟨st, hst, hr⟩ := (h.ruled n ruling).mp hmem
    rw [hn] at hst
    cases hst
    cases hr
  have hruled : (checkRequest p s n call).ruled =
      s.ruled ++ [(n, call, (Limiter.check p.victims s.limiter call).2)] := rfl
  refine ⟨h.credible, ?_, ?_, ?_, ?_, ?_, ?_, ?_⟩
  · show s.authFailures = (s.stages.set n _).countP _
    rw [countP_enter _ hn rfl, (afterCheck_uncounted call _).1, h.authFailures]
    rfl
  · show s.rateLimited = (s.stages.set n _).countP _
    rw [countP_enter _ hn rfl, (afterCheck_uncounted call _).2, h.rateLimited]
    rfl
  · apply h.authorized_enter hn
    intro c hc
    rw [afterCheck_call] at hc
    exact h.authorized n _ c hn hc
  · intro m ruling
    show (m, ruling) ∈ s.ruled ++ [_] ↔ ∃ st, (s.stages.set n _)[m]? = some st ∧ _
    rw [List.mem_append, List.mem_singleton, lookup_set hn]
    by_cases hm : m = n
    · rw [if_pos hm, hm]
      constructor
      · rintro (hmem | heq)
        · exact absurd hmem (hnew ruling)
        · rw [(Prod.mk.inj heq).2]
          exact ⟨_, rfl, afterCheck_ruling call _⟩
      · rintro ⟨st, hst, hr⟩
        rw [← Option.some.inj hst, afterCheck_ruling] at hr
        rw [← Option.some.inj hr]
        exact .inr rfl
    · rw [if_neg hm, ← h.ruled]
      constructor
      · rintro (hmem | heq)
        · exact hmem
        · exact absurd (Prod.mk.inj heq).1 hm
      · exact .inl
  · rw [hruled, List.map_append, List.nodup_append]
    refine ⟨h.once, List.nodup_singleton _, ?_⟩
    intro x hx y hy hxy
    rw [List.map_cons, List.map_nil, List.mem_singleton] at hy
    obtain ⟨⟨m, ruling⟩, hmem, rfl⟩ := List.mem_map.mp hx
    have hm : m = n := hxy.trans hy
    exact hnew ruling (hm ▸ hmem)
  · show (Limiter.check p.victims s.limiter call).1 = _
    rw [hruled, List.map_append, List.map_cons, List.map_nil, asked_concat, h.limiter]
  · rw [hruled, List.map_append, List.map_append, List.map_cons, List.map_nil, List.map_cons,
      List.map_nil, decisions_concat, h.decisions, h.limiter]

theorem step {act : Act} (h : Sound p s) (hstep : Stepped p s act s') : Sound p s' := by
  cases hstep with
  | @arrive headers auth hauth =>
    have hlookup : ∀ (m : Nat) (st : Stage), (s.stages ++ [Stage.authenticating])[m]? = some st →
        s.stages[m]? = some st ∨ st = .authenticating := by
      intro m st hst
      rw [List.getElem?_append] at hst
      split at hst
      · exact .inl hst
      · exact .inr (List.mem_singleton.mp (List.mem_of_getElem? hst))
    refine ⟨h.credible.step (Auth.stepped_of_step hauth), ?_, ?_, ?_, ?_, h.once, h.limiter,
      h.decisions⟩
    · rw [List.countP_append, h.authFailures]
      rfl
    · rw [List.countP_append, h.rateLimited]
      rfl
    · intro m st call hst hcall
      rcases hlookup m st hst with hold | rfl
      · exact (h.authorized m st call hold hcall).step hauth
      · cases hcall
    · intro m ruling
      rw [h.ruled]
      constructor
      · rintro ⟨st, hst, hr⟩
        refine ⟨st, ?_, hr⟩
        rw [List.getElem?_append_left (List.getElem?_eq_some_iff.mp hst).1, hst]
      · rintro ⟨st, hst, hr⟩
        rcases hlookup m st hst with hold | rfl
        · exact ⟨st, hold, hr⟩
        · cases hr
  | auth hauth =>
    exact {
      credible := h.credible.step (Auth.stepped_of_step hauth)
      authFailures := h.authFailures
      rateLimited := h.rateLimited
      authorized := fun m st call hst hcall => (h.authorized m st call hst hcall).step hauth
      ruled := h.ruled
      once := h.once
      limiter := h.limiter
      decisions := h.decisions }
  | refuse hn => exact h.enter .refused hn rfl rfl rfl (fun _ hc => by cases hc)
  | fail hn => exact h.enter .failed hn rfl rfl rfl (fun _ hc => by cases hc)
  | limit hn hreply =>
    refine h.enter (.limiting _) hn rfl rfl rfl ?_
    intro call hcall
    cases hcall
    exact authorized_of_reply hreply _
  | check hn => exact h.check hn
  | @reject n retryAfterSecs call hn =>
    refine h.enter (.limited call retryAfterSecs) hn rfl rfl rfl ?_
    exact fun c hc => h.authorized n _ c hn hc

theorem invariant (p : Policy) : (gateway p).Inductive Machine.anything (Sound p) where
  start s hs := by
    refine ⟨(Auth.Credible.invariant p.sha256).start _ hs.auth, ?_, ?_, ?_, ?_, ?_, ?_, ?_⟩
    · rw [hs.authFailures, hs.stages]
      rfl
    · rw [hs.rateLimited, hs.stages]
      rfl
    · rw [hs.stages]
      exact fun n st call hst => by cases hst
    · rw [hs.stages, hs.ruled]
      intro n ruling
      constructor
      · exact fun h => by cases h
      · rintro ⟨st, hst, _⟩
        cases hst
    · rw [hs.ruled]
      exact List.nodup_nil
    · rw [hs.limiter, hs.ruled]
      rfl
    · rw [hs.ruled]
      rfl
  step s a t h _ ht := h.step (stepped_of_step ht)

end Sound

/-! ## The result -/

/-- The request came with a stored key, which may have been revoked since, and
`call` asks the limiter about that key under its own limit. -/
def OfStoredKey (p : Policy) (s : State) (n : Nat) (call : Check) : Prop :=
  ∃ a r, s.auth.attempts n = some a ∧ r ∈ s.auth.keys.table.rows ∧
    r.keyIdentifier = a.identifier ∧ call.key = a.identifier ∧
    call.request = ⟨(effectiveLimit (r.customRateLimit.bind Auth.rateLimitOfColumn)
      p.defaultRateLimit).1, p.rateWindow⟩

structure Governed (p : Policy) (s : State) : Prop where
  authFailures : s.authFailures = s.stages.countP Stage.isRefused
  rateLimited : s.rateLimited = s.stages.countP Stage.isLimited
  stored : ∀ n stage call, s.stages[n]? = some stage → stage.call = some call →
    OfStoredKey p s n call
  /-- Each request is ruled on at most once, and goes on as it was ruled. -/
  once : (s.ruled.map (·.1)).Nodup
  ruled : ∀ n ruling, (n, ruling) ∈ s.ruled ↔
    ∃ stage, s.stages[n]? = some stage ∧ stage.ruling = some ruling
  decisions : s.ruled.map (·.2.2) = Limiter.decisions p.victims (s.ruled.map (·.2.1))

theorem Authorized.ofStoredKey {p : Policy} {s : State} {n : Nat} {call : Check}
    (h : Authorized p s.auth n call) (hcredible : Auth.Credible s.auth) :
    OfStoredKey p s n call := by
  obtain ⟨a, id, context, now, ha, hp, rfl⟩ := h
  have hphase := hcredible.attempts n a ha
  rw [hp] at hphase
  obtain ⟨⟨r, hr, hi, hlimit⟩, hcontext⟩ := hphase
  refine ⟨a, r, ha, Table.mem_of_find hr, hi, hcontext, ?_⟩
  rw [← hlimit]
  rfl

/-- What holds of all requests together, in every interleaving. -/
theorem governed (p : Policy) : (gateway p).Always Machine.anything (Governed p) := by
  intro s hr
  have h : Sound p s := (Sound.invariant p).reach hr
  exact {
    authFailures := h.authFailures
    rateLimited := h.rateLimited
    stored := fun n st call hst hcall =>
      (h.authorized n st call hst hcall).ofStoredKey h.credible
    once := h.once
    ruled := h.ruled
    decisions := h.decisions }

/-! ## How many requests of a key are handled -/

/-- No request overtakes another one between reading the clock and asking the
limiter. -/
def InOrder (s : State) : Act → Prop
  | .check n => ∀ call, s.stages[n]? = some (.limiting call) →
      ∀ e ∈ s.ruled, e.2.1.now ≤ call.now
  | _ => True

/-- When the requests of a key were let in. -/
def handledOf (key : String) (ruled : List (Nat × Check × RateDecision)) : List Nat :=
  (ruled.filter (fun e => e.2.1.key = key && e.2.2.isAllow)).map (·.2.1.now)

def State.handled (s : State) (key : String) : List Nat := handledOf key s.ruled

/-- The calls of the limiter, in the order in which it decided on them. -/
def State.calls (s : State) : List Check := s.ruled.map (·.2.1)

def Timely (s : State) : Prop := (s.calls.map Cache.Call.now).Pairwise (· ≤ ·)

theorem Timely.step {p : Policy} {s s' : State} {act : Act} (h : Timely s) (hc : InOrder s act)
    (hstep : Stepped p s act s') : Timely s' := by
  cases hstep with
  | @check n call hn =>
    have hcalls : (checkRequest p s n call).calls = s.calls ++ [call] := List.map_append
    rw [Timely, hcalls, List.map_append, List.pairwise_append]
    refine ⟨h, List.pairwise_singleton _ _, ?_⟩
    intro u hu v hv
    obtain ⟨c, hc', rfl⟩ := List.mem_map.mp hu
    obtain ⟨e, he, rfl⟩ := List.mem_map.mp hc'
    rw [List.mem_singleton.mp hv]
    exact hc call hn e he
  | arrive | auth | refuse | fail | limit | reject => exact h

theorem timely_invariant (p : Policy) : (gateway p).Inductive InOrder Timely where
  start s hs := by
    rw [Timely, State.calls, hs.ruled]
    exact List.Pairwise.nil
  step s a t h hc ht := h.step hc (stepped_of_step ht)

/-- What a limiter allows of the calls is what it ruled so. -/
theorem allowed_eq_handledOf (victims : States → States) (key : String)
    {ruled : List (Nat × Check × RateDecision)} {states : States}
    (h : ruled.map (·.2.2) = Cache.outputs Limiter.windows (Limiter.mokaRetention victims) states
      (ruled.map (·.2.1))) :
    Limiter.allowed victims key states (ruled.map (·.2.1)) = handledOf key ruled := by
  induction ruled generalizing states with
  | nil => rfl
  | cons e ruled ih =>
    rw [List.map_cons, List.map_cons, Cache.outputs, List.cons.injEq] at h
    obtain ⟨hdecision, hrest⟩ := h
    have hcheck : (Limiter.check victims states e.2.1).2 = e.2.2 := hdecision.symm
    have hnext : Limiter.allowed victims key (Limiter.check victims states e.2.1).1
        (ruled.map (·.2.1)) = handledOf key ruled := ih hrest
    rw [List.map_cons, Limiter.allowed, hcheck, hnext, handledOf, handledOf, List.filter_cons]
    by_cases hkey : e.2.1.key = key
    · cases hallow : e.2.2.isAllow with
      | true => simp [hkey]
      | false => simp
    · simp [hkey]

/-- Every call for a key is under the limit of its row. -/
theorem request_of_row {p : Policy} {s : State} (h : Sound p s) {r : Auth.ApiKeyRecord}
    (hr : r ∈ s.auth.keys.table.rows) :
    ∀ call ∈ s.calls, call.key = r.keyIdentifier →
      call.request = ⟨(effectiveLimit (r.customRateLimit.bind Auth.rateLimitOfColumn)
        p.defaultRateLimit).1, p.rateWindow⟩ := by
  intro call hcall hkey
  obtain ⟨⟨n, ruling⟩, he, rfl⟩ := List.mem_map.mp hcall
  obtain ⟨stage, hstage, hruling⟩ := (h.ruled n ruling).mp he
  have hasked : stage.call = some ruling.1 := by
    cases stage with
    | rejected call r => rw [← Option.some.inj hruling]; rfl
    | limited call r => rw [← Option.some.inj hruling]; rfl
    | handling call r => rw [← Option.some.inj hruling]; rfl
    | authenticating | refused | failed | limiting => cases hruling
  obtain ⟨a, r', _, hr', hi, hkey', hrequest⟩ :=
    (h.authorized n stage ruling.1 hstage hasked).ofStoredKey h.credible
  have hsame : r' = r :=
    Auth.ApiKeys.row_of_identifier hr' hr (hi.trans (hkey'.symm.trans hkey))
  rw [hrequest, hsame]

theorem effectiveLimit_le {default : Nat} (custom : Option Nat)
    (hdefault : default ≤ Limiter.u32Max) :
    (effectiveLimit custom default).1 ≤ Limiter.u32Max := by
  unfold effectiveLimit
  split
  · split
    · next hrange => exact Nat.le_trans hrange.2 (by decide)
    · exact hdefault
  · exact hdefault

/-- In an interval of the length of the window fewer requests of a key are handled
than twice its limit, and the limit once more for each time that the limiter had
dropped the entry of the key, if the requests ask the limiter in the order in
which they read the clock. -/
theorem handled_bounded (p : Policy) (hvictims : Limiter.DropsOnly p.victims)
    (hpos : 1 ≤ p.defaultRateLimit) (hmax : p.defaultRateLimit ≤ Limiter.u32Max) :
    (gateway p).Always InOrder (fun s => ∀ r ∈ s.auth.keys.table.rows, ∀ t,
      Arrivals.countIn t p.rateWindow (s.handled r.keyIdentifier) <
        (effectiveLimit (r.customRateLimit.bind Auth.rateLimitOfColumn) p.defaultRateLimit).1 *
          (2 + Arrivals.unknownIn t p.rateWindow
            (Limiter.arrivals p.victims r.keyIdentifier ∅ s.calls).tail)) := by
  intro s hreach r hr t
  have hsound : Sound p s :=
    ((Sound.invariant p).restrict (fun _ _ _ => trivial)).reach hreach
  have htimely : Timely s := (timely_invariant p).reach hreach
  have hallowed : Limiter.allowed p.victims r.keyIdentifier ∅ s.calls =
      s.handled r.keyIdentifier :=
    allowed_eq_handledOf p.victims r.keyIdentifier hsound.decisions
  rw [← hallowed]
  exact Limiter.allowed_within hvictims (Limiter.effectiveLimit_pos _ hpos)
    (effectiveLimit_le _ hmax) htimely (request_of_row hsound hr) t

/-- One request for every key, as the settings may say. -/
def oneRequest : Limiter.Settings := fun key =>
  if key = Limiter.keyDefaultRateLimit then some "1" else none

/-- One request in ten seconds for every key. -/
def onePerTenSeconds : Policy := ⟨fun _ => [0], id, 1, Limiter.ofSecs 10⟩

def closed : State := ⟨Auth.fresh, ∅, 0, 0, [], []⟩

/-- A key is created and two requests come with it. -/
def twoRequests : List Act :=
  [.auth (.create "$argon2id$" "00" "2026-01-01T00:00:00+00:00"),
    .arrive ⟨some "k", none⟩, .auth (.get 0), .auth (.lookup 0 true), .auth (.insert 0),
    .auth (.authenticate 0), .limit 0, .check 0,
    .arrive ⟨none, some "Bearer k"⟩, .auth (.get 1), .auth (.authenticate 1), .limit 1, .check 1,
    .reject 1]

theorem handled_bounded_two :
    ((gateway onePerTenSeconds).exec closed twoRequests).map
        (fun s => (s.handled "00", s.rateLimited)) = some ([0], 1) ∧
      (gateway onePerTenSeconds).Always InOrder (fun s => ∀ r ∈ s.auth.keys.table.rows, ∀ t,
        Arrivals.countIn t (Limiter.ofSecs 10) (s.handled r.keyIdentifier) <
          (effectiveLimit (r.customRateLimit.bind Auth.rateLimitOfColumn) 1).1 *
            (2 + Arrivals.unknownIn t (Limiter.ofSecs 10)
              (Limiter.arrivals id r.keyIdentifier ∅ s.calls).tail)) := by
  have hrange : 1 ≤ onePerTenSeconds.defaultRateLimit ∧
      onePerTenSeconds.defaultRateLimit ≤ 10000 :=
    @Limiter.defaultRateLimit_range oneRequest _ (by decide +kernel)
  exact ⟨by decide +kernel, handled_bounded onePerTenSeconds (fun _ _ _ h => h) hrange.1
    (Nat.le_trans hrange.2 (by decide))⟩

end Gateway
end Api
end GreenRelay
