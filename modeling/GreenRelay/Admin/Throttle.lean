/-
A source gets five wrong passwords in a quarter of an hour.

The lock test of a login and the record of its outcome are apart, with a read of
the database and a verification between them.  Logins that overlap do not see
each other's failures, so any number of them may verify a password
(`burst_of_guesses`).  And all sources share the tracker, which drops a failure
of a new source while it is full.  Where a login passes the lock test only when
no other one from its source is on its way from there to its record, and no
failure of the source is dropped, the log of the source is a sequence of
verifications each of which is followed by its outcome and found the source not
locked (`Throttled`), and the bound follows from the rule of the tracker.  The
logins of other sources only sweep out what is too old to matter.
-/
import GreenRelay.Admin.Login
import GreenRelay.Admin.Tracking
import Mathlib.Data.List.Induction

namespace GreenRelay
namespace Admin

open Auth (secs)
open Lockout (Chronological Remembers historyOf)

def Entry.now : Entry → Nat
  | .verified now _ => now
  | .failed now => now
  | .succeeded now => now

/-- The failures recorded since the last success. -/
def failuresSince (log : List Entry) : List Nat :=
  log.foldl (fun failures e =>
    match e with
    | .failed now => failures ++ [now]
    | .succeeded _ => []
    | .verified _ _ => failures) []

/-- A time in the quarter of an hour from `start` on. -/
def During (start t : Nat) : Prop := start ≤ t ∧ t < start + secs (15 * 60)

instance (start t : Nat) : Decidable (During start t) := inferInstanceAs (Decidable (_ ∧ _))

/-- A password that was wrong, verified in a quarter of an hour. -/
def wrongDuring (start : Nat) : Entry → Bool
  | .verified t false => During start t
  | _ => false

structure BruteForceBound (log : List Entry) : Prop where
  /-- Five wrong passwords in a quarter of an hour without a success. -/
  wrong : ∀ start, (∀ t, .succeeded t ∈ log → ¬ During start t) →
    log.countP (wrongDuring start) ≤ 5
  /-- No right one while the failures recorded before it lock the source. -/
  right : ∀ before t, before ++ [.verified t true] <+: log →
    ¬ adminPolicy.Locked (failuresSince before) t

/-- On the way from a passed lock test to the record. -/
def LoginPhase.inFlight : LoginPhase → Bool
  | .checked | .found _ | .verified _ => true
  | _ => false

def Flying (clientIp : String) (s : State) (n : Nat) (l : Login) : Prop :=
  s.logins n = some l ∧ l.clientIp = clientIp ∧ l.phase.inFlight = true

/-- A login from the source passes the lock test only when no other one from it is
between its own lock test and the record of its outcome. -/
def Serial (clientIp : String) (s : State) : Act → Prop
  | .check _ source _ _ now => source = clientIp →
      s.tracker.isLocked clientIp now = false → ∀ n l, ¬ Flying clientIp s n l
  | _ => True

/-- No failure of the source is dropped because the tracker is full of others. -/
def Counted (clientIp : String) (s : State) : Act → Prop
  | .record n => ∀ l, s.logins n = some l → l.clientIp = clientIp → l.phase = .verified none →
      ¬ adminPolicy.Saturated s.tracker.failures clientIp l.now
  | _ => True

def Sequential (clientIp : String) (s : State) (a : Act) : Prop :=
  Serial clientIp s a ∧ Counted clientIp s a

/-! ## Logs of logins one after the other -/

def outcome (now : Nat) (ok : Bool) : Entry := if ok then .succeeded now else .failed now

/-- Every verification found the source not locked and was recorded before the
next one. -/
inductive Throttled : List Entry → Prop where
  | nil : Throttled []
  | login {log : List Entry} {now : Nat} (ok : Bool) (h : Throttled log)
    (hpast : ∀ e ∈ log, e.now ≤ now) (hopen : ¬ adminPolicy.Locked (failuresSince log) now) :
    Throttled (log ++ [.verified now ok, outcome now ok])

section Logs

variable {log : List Entry} {now start : Nat}

theorem failuresSince_verified (log : List Entry) (now : Nat) (ok : Bool) :
    failuresSince (log ++ [.verified now ok]) = failuresSince log := by
  rw [failuresSince, List.foldl_append]
  rfl

theorem failuresSince_failed (log : List Entry) (now : Nat) :
    failuresSince (log ++ [.failed now]) = failuresSince log ++ [now] := by
  rw [failuresSince, List.foldl_append]
  rfl

theorem failuresSince_succeeded (log : List Entry) (now : Nat) :
    failuresSince (log ++ [.succeeded now]) = [] := by
  rw [failuresSince, List.foldl_append]
  rfl

theorem mem_failuresSince {t : Nat} (h : t ∈ failuresSince log) : .failed t ∈ log := by
  induction log using List.reverseRecOn with
  | nil => cases h
  | append_singleton log e ih =>
    cases e with
    | verified now ok =>
      rw [failuresSince_verified] at h
      exact List.mem_append_left _ (ih h)
    | failed now =>
      rw [failuresSince_failed] at h
      rcases List.mem_append.mp h with h | h
      · exact List.mem_append_left _ (ih h)
      · rw [List.mem_singleton.mp h]
        exact List.mem_append_right _ (List.mem_singleton.mpr rfl)
    | succeeded now =>
      rw [failuresSince_succeeded] at h
      cases h

theorem append_pair {α : Type} (l : List α) (a b : α) : l ++ [a, b] = l ++ [a] ++ [b] := by
  rw [List.append_assoc]
  rfl

def wrongSince (start : Nat) : Entry → Bool
  | .verified t false => start ≤ t
  | _ => false

/-- After the last success every wrong password is a recorded failure. -/
theorem countP_wrongSince (h : Throttled log) (hs : ∀ t, .succeeded t ∈ log → t < start) :
    log.countP (wrongSince start) = (failuresSince log).countP (start ≤ ·) := by
  induction h with
  | nil => rfl
  | @login log now ok h hpast _ ih =>
    rw [append_pair, List.countP_append, List.countP_append]
    cases ok with
    | true =>
      have hlate : now < start := hs now (by simp [outcome])
      have hzero : log.countP (wrongSince start) = 0 := by
        rw [List.countP_eq_zero]
        intro e he hwrong
        have hle := hpast e he
        cases e with
        | verified t ok =>
          cases ok with
          | true => cases hwrong
          | false =>
            have hsince : start ≤ t := by simpa [wrongSince] using hwrong
            have hle' : t ≤ now := hle
            omega
        | failed t => cases hwrong
        | succeeded t => cases hwrong
      rw [show outcome now true = .succeeded now from rfl, failuresSince_succeeded, hzero]
      rfl
    | false =>
      rw [show outcome now false = .failed now from rfl, failuresSince_failed,
        failuresSince_verified, List.countP_append,
        ih (fun t ht => hs t (List.mem_append_left _ ht))]
      simp [wrongSince, List.countP_cons]

/-- The wrong password that is verified next is one of five at most. -/
theorem countP_verified (h : Throttled log) (hb : log.countP (wrongDuring start) ≤ 5)
    (hns : ∀ t, .succeeded t ∈ log → ¬ During start t) (hpast : ∀ e ∈ log, e.now ≤ now)
    (hopen : ¬ adminPolicy.Locked (failuresSince log) now) (ok : Bool) :
    (log ++ [Entry.verified now ok]).countP (wrongDuring start) ≤ 5 := by
  rw [List.countP_append, List.countP_singleton]
  by_cases hw : wrongDuring start (.verified now ok) = true
  · rw [if_pos hw]
    have hduring : During start now := by
      cases ok with
      | true => cases hw
      | false => simpa [wrongDuring] using hw
    obtain ⟨hstart, hend⟩ := hduring
    have hearly : ∀ t, .succeeded t ∈ log → t < start := by
      intro t ht
      have hle : t ≤ now := hpast _ ht
      by_contra hge
      exact hns t ht ⟨by omega, by omega⟩
    have hmono : log.countP (wrongDuring start) ≤ log.countP (wrongSince start) := by
      apply List.countP_mono_left
      intro e _ he
      cases e with
      | verified t ok =>
        cases ok with
        | true => cases he
        | false =>
          have hduring : During start t := by simpa [wrongDuring] using he
          simpa [wrongSince] using hduring.1
      | failed t => cases he
      | succeeded t => cases he
    rw [countP_wrongSince h hearly] at hmono
    by_contra hmany
    apply hopen
    have hfive : 5 ≤ (failuresSince log).countP (start ≤ ·) := by omega
    exact Lockout.Policy.locked_of_burst (fun t ht => hpast _ (mem_failuresSince ht))
      hend hend hfive
  · rw [if_neg hw]
    exact hb

theorem Throttled.wrong (h : Throttled log) :
    ∀ start, (∀ t, .succeeded t ∈ log → ¬ During start t) →
      log.countP (wrongDuring start) ≤ 5 := by
  intro start hns
  induction h with
  | nil => exact Nat.zero_le 5
  | @login log now ok h hpast hopen ih =>
    have hns' : ∀ t, .succeeded t ∈ log → ¬ During start t :=
      fun t ht => hns t (List.mem_append_left _ ht)
    have hzero : wrongDuring start (outcome now ok) = false := by cases ok <;> rfl
    rw [append_pair, List.countP_append, List.countP_singleton, hzero]
    exact countP_verified h (ih hns') hns' hpast hopen ok

theorem Throttled.right (h : Throttled log) :
    ∀ before t, before ++ [.verified t true] <+: log →
      ¬ adminPolicy.Locked (failuresSince before) t := by
  intro before t
  induction h with
  | nil =>
    intro hpre
    simp at hpre
  | @login log now ok h hpast hopen ih =>
    intro hpre
    rw [append_pair, List.prefix_concat_iff, List.prefix_concat_iff] at hpre
    rcases hpre with heq | heq | hpre
    · have hlast := (List.append_inj' heq rfl).2
      cases ok <;> simp [outcome] at hlast
    · obtain ⟨rfl, hlast⟩ := List.append_inj' heq rfl
      simp only [List.cons.injEq, Entry.verified.injEq, and_true] at hlast
      exact hlast.1 ▸ hopen
    · exact ih hpre

end Logs

/-! ## The invariant -/

/-- What a login in flight has put in the log. -/
def LoginPhase.entries (now : Nat) : LoginPhase → List Entry
  | .verified admin => [.verified now admin.isSome]
  | _ => []

/-- Behind the logins from the source that are over there is one in flight at most. -/
inductive Progress (clientIp : String) (s : State) : Prop where
  | idle (h : Throttled (s.logOf clientIp)) (hnone : ∀ n l, ¬ Flying clientIp s n l)
  | busy {done : List Entry} {n : Nat} {l : Login} (h : Throttled done) (hl : Flying clientIp s n l)
    (hlog : s.logOf clientIp = done ++ l.phase.entries l.now)
    (honly : ∀ m l', Flying clientIp s m l' → m = n)
    (hpast : ∀ e ∈ done, e.now ≤ l.now) (hopen : ¬ adminPolicy.Locked (failuresSince done) l.now)

structure Serialized (clientIp : String) (s : State) : Prop where
  progress : Progress clientIp s
  timely : ∀ n l, s.logins n = some l → l.now ≤ s.clock
  past : ∀ e ∈ s.logOf clientIp, e.now ≤ s.clock
  chronological : Chronological s.clock (failuresSince (s.logOf clientIp))
  /-- The tracker knows the failures of the source since its last success. -/
  remembers : Remembers adminPolicy s.clock (failuresSince (s.logOf clientIp))
    (historyOf s.tracker.failures clientIp)

section Steps

variable {clientIp source : String} {s s' : State} {n : Nat} {l : Login} {p : LoginPhase}
  {e : Entry}

theorem logOf_own (hlog : s'.log = s.log ++ [(clientIp, e)]) :
    s'.logOf clientIp = s.logOf clientIp ++ [e] := by
  rw [State.logOf, hlog, List.filter_append, List.map_append]
  simp [State.logOf]

theorem logOf_other (hlog : s'.log = s.log ++ [(source, e)]) (hne : source ≠ clientIp) :
    s'.logOf clientIp = s.logOf clientIp := by
  rw [State.logOf, hlog, List.filter_append, List.map_append]
  simp [State.logOf, hne]

theorem flying_setLogin {m : Nat} {l' : Login} (h : Flying clientIp (s.setLogin n l) m l') :
    m = n ∧ l' = l ∨ m ≠ n ∧ Flying clientIp s m l' := by
  rcases setLogin_logins h.1 with ⟨hm, rfl⟩ | ⟨hm, hl'⟩
  · exact .inl ⟨hm, rfl⟩
  · exact .inr ⟨hm, hl', h.2⟩

theorem flying_self (hsource : l.clientIp = clientIp) (hp : l.phase.inFlight = true) :
    Flying clientIp (s.setLogin n l) n l :=
  ⟨if_pos rfl, hsource, hp⟩

/-- A login that does not fly for the source, before and after, moves. -/
theorem Progress.quiet (h : Progress clientIp s) (hlogins : s'.logins = (s.setLogin n l).logins)
    (hlog : s'.logOf clientIp = s.logOf clientIp) (hold : ∀ l₀, ¬ Flying clientIp s n l₀)
    (hnew : l.clientIp = clientIp → l.phase.inFlight = false) : Progress clientIp s' := by
  have hback : ∀ m l', Flying clientIp s' m l' → Flying clientIp s m l' := by
    rintro m l' ⟨hl', hsource, hfly⟩
    rcases flying_setLogin ⟨hlogins ▸ hl', hsource, hfly⟩ with ⟨_, rfl⟩ | ⟨_, hfl⟩
    · cases (hnew hsource).symm.trans hfly
    · exact hfl
  cases h with
  | idle h hnone => exact .idle (hlog ▸ h) (fun m l' hfl => hnone m l' (hback m l' hfl))
  | @busy done m l₀ h hl hlog₀ honly hpast hopen =>
    have hm : m ≠ n := by
      rintro rfl
      exact hold l₀ hl
    have hl₀ : s'.logins m = some l₀ := by
      rw [hlogins]
      simp only [State.setLogin, if_neg hm]
      exact hl.1
    exact .busy h ⟨hl₀, hl.2⟩ (hlog.trans hlog₀) (fun k l' hfl => honly k l' (hback k l' hfl))
      hpast hopen

theorem not_flying (hl : s.logins n = some l)
    (hp : l.clientIp = clientIp → l.phase.inFlight = false) : ∀ l₀, ¬ Flying clientIp s n l₀ := by
  rintro l₀ ⟨hl₀, hsource, hfly⟩
  rw [hl, Option.some.injEq] at hl₀
  subst hl₀
  cases (hp hsource).symm.trans hfly

/-- The login in flight is the one that moves. -/
theorem Progress.flight (h : Progress clientIp s) (hl : Flying clientIp s n l) :
    ∃ done, Throttled done ∧ s.logOf clientIp = done ++ l.phase.entries l.now ∧
      (∀ m l', Flying clientIp s m l' → m = n) ∧ (∀ e ∈ done, e.now ≤ l.now) ∧
      ¬ adminPolicy.Locked (failuresSince done) l.now := by
  cases h with
  | idle _ hnone => exact absurd hl (hnone n l)
  | @busy done m l₀ h hl₀ hlog honly hpast hopen =>
    obtain rfl := honly n l hl
    have hsame := hl.1.symm.trans hl₀.1
    rw [Option.some.injEq] at hsame
    subst hsame
    exact ⟨done, h, hlog, honly, hpast, hopen⟩

theorem only_setLogin {l' : Login} (honly : ∀ m l', Flying clientIp s m l' → m = n) :
    ∀ m l₀, Flying clientIp (s.setLogin n l') m l₀ → m = n := by
  intro m l₀ hfl
  rcases flying_setLogin hfl with ⟨hm, _⟩ | ⟨_, hfl⟩
  · exact hm
  · exact honly m l₀ hfl

theorem none_setLogin {l' : Login} (honly : ∀ m l', Flying clientIp s m l' → m = n)
    (hp : l'.phase.inFlight = false) : ∀ m l₀, ¬ Flying clientIp (s.setLogin n l') m l₀ := by
  intro m l₀ hfl
  rcases flying_setLogin hfl with ⟨_, rfl⟩ | ⟨hm, hfl⟩
  · cases hp.symm.trans hfl.2.2
  · exact hm (honly m l₀ hfl)

theorem timely_setLogin {now : Nat} (h : ∀ n l, s.logins n = some l → l.now ≤ now)
    (hlogins : s'.logins = (s.setLogin n l).logins) (hl : l.now ≤ now) :
    ∀ m l', s'.logins m = some l' → l'.now ≤ now := by
  intro m l' hl'
  rw [hlogins] at hl'
  rcases setLogin_logins hl' with ⟨_, rfl⟩ | ⟨_, hold⟩
  · exact hl
  · exact h m l' hold

theorem audit_inFlight {row : AuditRow} (h : auditOf l = some (row, p)) :
    l.phase.inFlight = false ∧ p.inFlight = false := by
  unfold auditOf at h
  cases hp : l.phase with
  | rejected | opened | audited =>
    rw [hp] at h
    cases h
    exact ⟨rfl, rfl⟩
  | recorded nowLocked =>
    rw [hp] at h
    cases h
    exact ⟨rfl, by cases nowLocked <;> rfl⟩
  | checked | found | verified | cleared | done =>
    rw [hp] at h
    cases h

end Steps

/-! ## Steps of serialized logins -/

namespace Serialized

variable {verify : PasswordVerifier} {clientIp : String} {s s' : State} {n : Nat} {l : Login}
  {p : LoginPhase}

/-- The lock test answers by the failures since the last success. -/
theorem locked_iff (h : Serialized clientIp s) {now : Nat} (hnow : s.clock ≤ now) :
    s.tracker.isLocked clientIp now = true ↔
      adminPolicy.Locked (failuresSince (s.logOf clientIp)) now := by
  obtain ⟨forgotten, heq, _⟩ := h.remembers.suffix
  have hpast : ∀ f ∈ historyOf s.tracker.failures clientIp, f ≤ now := by
    intro f hf
    have hmem : f ∈ failuresSince (s.logOf clientIp) := heq ▸ List.mem_append_right _ hf
    exact (h.chronological.past f hmem).trans hnow
  rw [h.remembers.locked_iff h.chronological hnow]
  exact loginTracker.isLocked_iff s.tracker clientIp now hpast

/-- A login that does not fly for the source, before or after, leaves the rest as it is. -/
theorem quiet (h : Serialized clientIp s) (hlogins : s'.logins = (s.setLogin n l).logins)
    (hlog : s'.logOf clientIp = s.logOf clientIp) (hclock : s.clock ≤ s'.clock)
    (hnow : l.now ≤ s'.clock) (hold : ∀ l₀, ¬ Flying clientIp s n l₀)
    (hnew : l.clientIp = clientIp → l.phase.inFlight = false)
    (hremembers : Remembers adminPolicy s'.clock (failuresSince (s.logOf clientIp))
      (historyOf s'.tracker.failures clientIp)) : Serialized clientIp s' where
  progress := h.progress.quiet hlogins hlog hold hnew
  timely := timely_setLogin (fun m l' hl' => (h.timely m l' hl').trans hclock) hlogins hnow
  past := by
    rw [hlog]
    exact fun e he => (h.past e he).trans hclock
  chronological := by
    rw [hlog]
    exact h.chronological.mono hclock
  remembers := by
    rw [hlog]
    exact hremembers

/-- A step of a login from another source. -/
theorem other (h : Serialized clientIp s) (hl : s.logins n = some l) (hne : l.clientIp ≠ clientIp)
    (hlogins : s'.logins = (s.setLogin n (l.enter p)).logins)
    (hlog : s'.log = s.log ∨ ∃ e, s'.log = s.log ++ [(l.clientIp, e)]) (hclock : s'.clock = s.clock)
    (hremembers : Remembers adminPolicy s.clock (failuresSince (s.logOf clientIp))
      (historyOf s'.tracker.failures clientIp)) : Serialized clientIp s' := by
  have hlogOf : s'.logOf clientIp = s.logOf clientIp := by
    rcases hlog with heq | ⟨e, heq⟩
    · rw [State.logOf, heq]
      rfl
    · exact logOf_other heq hne
  exact h.quiet hlogins hlogOf (Nat.le_of_eq hclock.symm) (hclock ▸ h.timely n l hl)
    (not_flying hl (fun heq => absurd heq hne)) (fun heq => absurd heq hne) (hclock ▸ hremembers)

/-- A failure from another source only sweeps out what is too old. -/
theorem remembers_other (h : Serialized clientIp s) (hl : s.logins n = some l)
    (hne : l.clientIp ≠ clientIp) :
    Remembers adminPolicy s.clock (failuresSince (s.logOf clientIp))
      (historyOf (s.tracker.recordFailure l.clientIp l.now).failures clientIp) := by
  have hkept : historyOf (s.tracker.recordFailure l.clientIp l.now).failures clientIp
        = historyOf s.tracker.failures clientIp ∨
      historyOf (s.tracker.recordFailure l.clientIp l.now).failures clientIp
        = adminPolicy.retained (historyOf s.tracker.failures clientIp) l.now :=
    Lockout.historyOf_recordFailure_ne hne.symm
  rcases hkept with heq | heq
  · exact heq.symm ▸ h.remembers
  · exact heq.symm ▸ h.remembers.retain h.chronological (Nat.le_refl _) (h.timely n l hl)

/-- A login that passes the lock test is on its own. -/
theorem check (h : Serialized clientIp s) {username password : String} {now : Nat}
    (hc : s.tracker.isLocked clientIp now = false → ∀ n l, ¬ Flying clientIp s n l)
    (hn : s.logins n = none) (hnow : s.clock ≤ now) :
    Serialized clientIp { s.setLogin n ⟨clientIp, username, password, now,
      checkLogin clientIp s now⟩ with clock := now } := by
  have hold : ∀ l₀, ¬ Flying clientIp s n l₀ := by
    rintro l₀ ⟨hl₀, _⟩
    cases hn.symm.trans hl₀
  have hremembers := h.remembers.mono hnow
  cases hlocked : s.tracker.isLocked clientIp now with
  | true =>
    exact h.quiet rfl rfl hnow (Nat.le_refl now) hold
      (fun _ => by simp [checkLogin, hlocked, LoginPhase.inFlight]) hremembers
  | false =>
    have hchecked : checkLogin clientIp s now = .checked := by simp [checkLogin, hlocked]
    have hnone := hc hlocked
    have hpast : ∀ e ∈ s.logOf clientIp, e.now ≤ now := fun e he => (h.past e he).trans hnow
    have hopen : ¬ adminPolicy.Locked (failuresSince (s.logOf clientIp)) now := by
      rw [← h.locked_iff hnow, hlocked]
      exact Bool.false_ne_true
    refine ⟨?_, ?_, hpast, h.chronological.mono hnow, hremembers⟩
    · cases h.progress with
      | busy _ hl _ _ _ _ => exact absurd hl (hnone _ _)
      | idle hthrottled _ =>
        rw [hchecked]
        refine .busy hthrottled (flying_self rfl rfl) (List.append_nil _).symm ?_ hpast hopen
        exact only_setLogin (fun m l' hfl => absurd hfl (hnone m l'))
    · exact timely_setLogin (fun m l' hl' => (h.timely m l' hl').trans hnow) rfl (Nat.le_refl now)

/-- The other sources' logins begin beside. -/
theorem check_other (h : Serialized clientIp s) {source username password : String} {now : Nat}
    (hne : source ≠ clientIp) (hn : s.logins n = none) (hnow : s.clock ≤ now) :
    Serialized clientIp { s.setLogin n ⟨source, username, password, now,
      checkLogin source s now⟩ with clock := now } := by
  have hold : ∀ l₀, ¬ Flying clientIp s n l₀ := by
    rintro l₀ ⟨hl₀, _⟩
    cases hn.symm.trans hl₀
  exact h.quiet rfl rfl hnow (Nat.le_refl now) hold (fun heq => absurd heq hne)
    (h.remembers.mono hnow)

theorem find (h : Serialized clientIp s) {credentials : Option Credentials}
    (hl : s.logins n = some l) (hsource : l.clientIp = clientIp) (hp : l.phase = .checked) :
    Serialized clientIp (s.setLogin n (l.enter (.found credentials))) := by
  obtain ⟨done, hthrottled, hlog, honly, hpast, hopen⟩ :=
    h.progress.flight ⟨hl, hsource, by rw [hp]; rfl⟩
  rw [hp] at hlog
  exact ⟨.busy hthrottled (flying_self hsource rfl) hlog (only_setLogin honly) hpast hopen,
    timely_setLogin h.timely rfl (h.timely n l hl), h.past, h.chronological, h.remembers⟩

theorem verified (h : Serialized clientIp s) {credentials : Option Credentials}
    {admin : Option Int} (hl : s.logins n = some l) (hsource : l.clientIp = clientIp)
    (hp : l.phase = .found credentials) (hlogins : s'.logins = (s.setLogin n
      (l.enter (.verified admin))).logins) (hlog' : s'.log = s.log ++
        [(l.clientIp, .verified l.now admin.isSome)]) (hclock : s'.clock = s.clock)
    (htracker : s'.tracker = s.tracker) : Serialized clientIp s' := by
  obtain ⟨done, hthrottled, hlog, honly, hpast, hopen⟩ :=
    h.progress.flight ⟨hl, hsource, by rw [hp]; rfl⟩
  rw [hp] at hlog
  have hdone : s.logOf clientIp = done := hlog.trans (List.append_nil done)
  have hlogOf := logOf_own (hsource ▸ hlog')
  have hsince : failuresSince (s'.logOf clientIp) = failuresSince (s.logOf clientIp) := by
    rw [hlogOf, failuresSince_verified]
  have hfly : ∀ m l', Flying clientIp s' m l' → Flying clientIp (s.setLogin n
      (l.enter (.verified admin))) m l' := fun m l' hfl => ⟨hlogins ▸ hfl.1, hfl.2⟩
  have hself : Flying clientIp s' n (l.enter (.verified admin)) :=
    ⟨hlogins ▸ if_pos rfl, hsource, rfl⟩
  refine ⟨.busy hthrottled hself ?_ (fun m l' hfl => only_setLogin honly m l' (hfly m l' hfl)) hpast
    hopen, ?_, ?_, ?_, ?_⟩
  · rw [hlogOf, hdone]
    rfl
  · rw [hclock]
    exact timely_setLogin h.timely hlogins (h.timely n l hl)
  · rw [hlogOf, hclock]
    intro e he
    rcases List.mem_append.mp he with he | he
    · exact h.past e he
    · rw [List.mem_singleton.mp he]
      exact h.timely n l hl
  · rw [hsince, hclock]
    exact h.chronological
  · rw [hsince, hclock, htracker]
    exact h.remembers

/-- The record of the login in flight ends its part of the log. -/
theorem recorded (h : Serialized clientIp s) {admin : Option Int} (hl : s.logins n = some l)
    (hsource : l.clientIp = clientIp) (hp : l.phase = .verified admin)
    (hlogins : s'.logins = (s.setLogin n (l.enter p)).logins) (hover : p.inFlight = false)
    (hlog' : s'.logOf clientIp = s.logOf clientIp ++ [outcome l.now admin.isSome])
    (hclock : s'.clock = s.clock)
    (hfailures : (∀ e ∈ s.logOf clientIp, e.now ≤ l.now) →
      Chronological s.clock (failuresSince (s'.logOf clientIp)) ∧
        Remembers adminPolicy s.clock (failuresSince (s'.logOf clientIp))
          (historyOf s'.tracker.failures clientIp)) : Serialized clientIp s' := by
  obtain ⟨done, hthrottled, hlog, honly, hpast, hopen⟩ :=
    h.progress.flight ⟨hl, hsource, by rw [hp]; rfl⟩
  rw [hp] at hlog
  have hnow : l.now ≤ s.clock := h.timely n l hl
  have hoe : (outcome l.now admin.isSome).now = l.now := by cases admin <;> rfl
  have hall : s'.logOf clientIp
      = done ++ [.verified l.now admin.isSome, outcome l.now admin.isSome] := by
    rw [hlog', hlog, append_pair]
    rfl
  have hbefore : ∀ e ∈ s.logOf clientIp, e.now ≤ l.now := by
    intro e he
    rw [hlog] at he
    rcases List.mem_append.mp he with he | he
    · exact hpast e he
    · rw [List.mem_singleton.mp he]
      exact Nat.le_refl _
  obtain ⟨hchronological, hremembers⟩ := hfailures hbefore
  refine ⟨.idle ?_ ?_, ?_, ?_, hclock ▸ hchronological, hclock ▸ hremembers⟩
  · rw [hall]
    exact .login admin.isSome hthrottled hpast hopen
  · intro m l' hfl
    exact none_setLogin honly hover m l' ⟨hlogins ▸ hfl.1, hfl.2⟩
  · rw [hclock]
    exact timely_setLogin h.timely hlogins hnow
  · rw [hlog', hclock]
    intro e he
    rcases List.mem_append.mp he with he | he
    · exact h.past e he
    · rw [List.mem_singleton.mp he, hoe]
      exact hnow

/-- A failure that is not dropped is pushed on the history of its source. -/
theorem historyOf_recordFailure {t : AdminLoginTracker} {now : Nat}
    (hroom : ¬ adminPolicy.Saturated t.failures clientIp now) :
    historyOf (t.recordFailure clientIp now).failures clientIp
      = adminPolicy.push (historyOf t.failures clientIp) now := by
  by_cases hmem : clientIp ∈ t.failures
  · exact Lockout.historyOf_recordFailure_mem hmem
  · rw [Lockout.historyOf_of_notMem hmem]
    exact (Lockout.historyOf_recordFailure_new hmem).2 hroom

theorem failed (h : Serialized clientIp s) (hl : s.logins n = some l)
    (hsource : l.clientIp = clientIp) (hp : l.phase = .verified none)
    (hroom : ¬ adminPolicy.Saturated s.tracker.failures clientIp l.now) :
    Serialized clientIp (recordFailed s n l) := by
  have hnow : l.now ≤ s.clock := h.timely n l hl
  have hlog : (recordFailed s n l).logOf clientIp = s.logOf clientIp ++ [.failed l.now] :=
    logOf_own (hsource ▸ rfl)
  refine h.recorded hl hsource hp rfl rfl hlog rfl (fun hpast => ?_)
  have hchronological : Chronological l.now (failuresSince (s.logOf clientIp)) :=
    ⟨h.chronological.sorted, fun t ht => hpast _ (mem_failuresSince ht)⟩
  have hlast := hchronological.concat (Nat.le_refl l.now)
  rw [hlog, failuresSince_failed]
  refine ⟨hlast.mono hnow, ?_⟩
  have hhistory : historyOf (recordFailed s n l).tracker.failures clientIp
      = adminPolicy.push (historyOf s.tracker.failures clientIp) l.now :=
    hsource ▸ historyOf_recordFailure (hsource.symm ▸ hroom)
  rw [hhistory]
  exact h.remembers.push hlast (Nat.le_refl _) hnow

theorem succeeded (h : Serialized clientIp s) {adminId : Int} (hl : s.logins n = some l)
    (hsource : l.clientIp = clientIp) (hp : l.phase = .verified (some adminId)) :
    Serialized clientIp (recordSucceeded s n l adminId) := by
  have hlog : (recordSucceeded s n l adminId).logOf clientIp
      = s.logOf clientIp ++ [.succeeded l.now] := logOf_own (hsource ▸ rfl)
  refine h.recorded hl hsource hp rfl rfl hlog rfl
    (fun _ => ?_)
  have hhistory : historyOf (recordSucceeded s n l adminId).tracker.failures clientIp = [] :=
    hsource ▸ Lockout.historyOf_erase
  rw [hlog, failuresSince_succeeded, hhistory]
  exact ⟨.nil _, .nil _ _⟩

theorem fail (h : Serialized clientIp s) (hl : s.logins n = some l)
    (hsource : l.clientIp = clientIp) (hwaits : l.phase.waits = true) :
    Serialized clientIp (s.setLogin n (l.enter (.done none))) := by
  cases hp : l.phase.inFlight with
  | false =>
    exact h.quiet rfl rfl (Nat.le_refl _) (h.timely n l hl) (not_flying hl (fun _ => hp))
      (fun _ => rfl) h.remembers
  | true =>
    -- Only the wait for the credentials is in flight.
    have hentries : l.phase.entries l.now = [] := by
      cases hphase : l.phase with
      | verified admin =>
        rw [hphase] at hwaits
        cases hwaits
      | rejected | checked | found | cleared | opened | recorded | audited | done => rfl
    obtain ⟨done, hthrottled, hlog, honly, _, _⟩ := h.progress.flight ⟨hl, hsource, hp⟩
    rw [hentries, List.append_nil] at hlog
    have hthrottled' : Throttled (s.logOf clientIp) := hlog ▸ hthrottled
    exact ⟨.idle hthrottled' (none_setLogin honly rfl),
      timely_setLogin h.timely rfl (h.timely n l hl), h.past, h.chronological, h.remembers⟩

theorem step {a : Act} (h : Serialized clientIp s) (hc : Sequential clientIp s a)
    (hstep : Stepped verify s a s') : Serialized clientIp s' := by
  cases hstep with
  | check source username password hn hnow =>
    by_cases hsource : source = clientIp
    · subst hsource
      exact h.check (hc.1 rfl) hn hnow
    · exact h.check_other hsource hn hnow
  | @find n l credentials hl hp =>
    by_cases hsource : l.clientIp = clientIp
    · exact h.find hl hsource hp
    · exact h.other hl hsource rfl (.inl rfl) rfl h.remembers
  | @verify n l credentials hl hp =>
    by_cases hsource : l.clientIp = clientIp
    · exact h.verified hl hsource hp rfl rfl rfl rfl
    · exact h.other hl hsource rfl (.inr ⟨_, rfl⟩) rfl h.remembers
  | @recordSucceeded n l adminId hl hp =>
    by_cases hsource : l.clientIp = clientIp
    · exact h.succeeded hl hsource hp
    · refine h.other hl hsource rfl (.inr ⟨_, rfl⟩) rfl ?_
      have hhistory : historyOf (recordSucceeded s n l adminId).tracker.failures clientIp
          = historyOf s.tracker.failures clientIp := Lockout.historyOf_erase_ne (Ne.symm hsource)
      exact hhistory.symm ▸ h.remembers
  | @recordFailed n l hl hp =>
    by_cases hsource : l.clientIp = clientIp
    · exact h.failed hl hsource hp (hc.2 l hl hsource hp)
    · exact h.other hl hsource rfl (.inr ⟨_, rfl⟩) rfl (h.remembers_other hl hsource)
  | @openSession n l adminId token csrfToken hl hp =>
    exact h.quiet rfl rfl (Nat.le_refl _) (h.timely n l hl)
      (not_flying hl (fun _ => by rw [hp]; rfl)) (fun _ => rfl) h.remembers
  | @audit n l row p hl hrow =>
    exact h.quiet rfl rfl (Nat.le_refl _) (h.timely n l hl)
      (not_flying hl (fun _ => (audit_inFlight hrow).1)) (fun _ => (audit_inFlight hrow).2)
      h.remembers
  | @fail n l hl hwaits =>
    by_cases hsource : l.clientIp = clientIp
    · exact h.fail hl hsource hwaits
    · exact h.other hl hsource rfl (.inl rfl) rfl h.remembers

theorem invariant (verify : PasswordVerifier) (clientIp : String) :
    (logins verify).Inductive (Sequential clientIp) (Serialized clientIp) where
  start s hs := by
    have hlog : s.logOf clientIp = [] := by
      rw [State.logOf, hs.log]
      rfl
    have hnone : ∀ n l, s.logins n ≠ some l := by
      intro n l hl
      rw [hs.logins] at hl
      cases hl
    refine ⟨.idle ?_ (fun n l hfl => hnone n l hfl.1), fun n l hl => absurd hl (hnone n l),
      ?_, ?_, ?_⟩
    · rw [hlog]
      exact .nil
    · rw [hlog]
      exact fun _ he => by cases he
    · rw [hlog]
      exact .nil _
    · rw [hlog, hs.tracker]
      exact .nil _ _
  step _ _ _ h hc hstep := h.step hc (stepped_of_step hstep)

/-- A login in flight has at most added its verification. -/
theorem bound (h : Serialized clientIp s) : BruteForceBound (s.logOf clientIp) := by
  cases h.progress with
  | idle hthrottled _ => exact ⟨hthrottled.wrong, hthrottled.right⟩
  | @busy done n l hthrottled _ hlog _ hpast hopen =>
    rw [hlog]
    cases hp : l.phase with
    | verified admin =>
      refine ⟨fun start hns => ?_, fun before t hpre => ?_⟩
      · have hns' : ∀ t, .succeeded t ∈ done → ¬ During start t :=
          fun t ht => hns t (List.mem_append_left _ ht)
        exact countP_verified hthrottled (hthrottled.wrong start hns') hns' hpast hopen _
      · rcases List.prefix_concat_iff.mp hpre with heq | hpre
        · obtain ⟨rfl, hlast⟩ := List.append_inj' heq rfl
          simp only [List.cons.injEq, Entry.verified.injEq, and_true] at hlast
          exact hlast.1 ▸ hopen
        · exact hthrottled.right before t hpre
    | rejected | checked | found | cleared | opened | recorded | audited | done =>
      rw [show LoginPhase.entries _ _ = [] from rfl, List.append_nil]
      exact ⟨hthrottled.wrong, hthrottled.right⟩

end Serialized

/-- Logins from a source that do not overlap between the lock test and the record,
and whose failures the tracker has room for, are bounded in their wrong guesses, and
locked out after them, whatever comes from other sources meanwhile. -/
theorem guesses_bounded (verify : PasswordVerifier) (clientIp : String) :
    (logins verify).Always (Sequential clientIp) (fun s => BruteForceBound (s.logOf clientIp)) :=
  (Serialized.invariant verify clientIp).always (fun _ h => h.bound)

/-! ## Logins one after the other -/

section OneByOne

variable {verify : PasswordVerifier} {clientIp : String} {s s' : State}

/-- The login that an action moves. -/
def Act.login : Act → Nat
  | .check n .. | .find n _ | .verify n | .record n | .openSession n .. | .audit n | .fail n => n

theorem logins_stepped {a : Act} {m : Nat} (h : Stepped verify s a s') (hm : m ≠ a.login) :
    s'.logins m = s.logins m := by
  cases h <;> exact if_neg hm

theorem logins_exec {acts : List Act} {m : Nat} (h : (logins verify).exec s acts = some s')
    (hm : ∀ a ∈ acts, m ≠ a.login) : s'.logins m = s.logins m := by
  induction acts generalizing s with
  | nil => rw [Option.some.inj h]
  | cons a acts ih =>
    obtain ⟨t, ht, hrest⟩ := Option.bind_eq_some_iff.mp h
    have hfirst := logins_stepped (stepped_of_step ht) (hm a List.mem_cons_self)
    rw [ih hrest (fun b hb => hm b (List.mem_cons_of_mem a hb)), hfirst]

/-- Only the record touches the tracker. -/
def Act.records : Act → Bool
  | .record _ => true
  | _ => false

theorem tracker_stepped {a : Act} (h : (logins verify).step s a = some s')
    (ha : a.records = false) : s'.tracker = s.tracker := by
  cases stepped_of_step h <;> first | rfl | cases ha

/-- A login up to the record of its outcome. -/
def attempt (n : Nat) (clientIp username password : String) (now : Nat)
    (credentials : Option Credentials) : List Act :=
  [.check n clientIp username password now, .find n credentials, .verify n, .record n]

/-- A login that begins when none from its source is in flight, and finds room in
the tracker, meets the condition. -/
theorem meets_attempt (hidle : ∀ m l, ¬ Flying clientIp s m l)
    (hroom : s.tracker.failures.entries.length < maxTrackedUsernames) (n : Nat)
    (username password : String) (now : Nat) (credentials : Option Credentials) :
    (logins verify).Meets (Sequential clientIp) s
      (attempt n clientIp username password now credentials) := by
  refine ⟨⟨fun _ _ => hidle, trivial⟩, fun t₁ h₁ => ⟨⟨trivial, trivial⟩, fun t₂ h₂ =>
    ⟨⟨trivial, trivial⟩, fun t₃ h₃ => ⟨⟨trivial, ?_⟩, fun _ _ => trivial⟩⟩⟩⟩
  have htracker : t₃.tracker = s.tracker :=
    calc t₃.tracker = t₂.tracker := tracker_stepped h₃ rfl
      _ = t₁.tracker := tracker_stepped h₂ rfl
      _ = s.tracker := tracker_stepped h₁ rfl
  intro l _ _ _ hsaturated
  have hfull : maxTrackedUsernames ≤ t₃.tracker.failures.entries.length := hsaturated.2.1
  rw [htracker] at hfull
  omega

end OneByOne

/-- Wrong passwords from one source, while a login from another one is in flight. -/
def guesses : Nat → List Act
  | 0 => [.check 9 "198.51.100.1" "admin" "guess" 0]
  | n + 1 => guesses n ++ attempt n "203.0.113.7" "admin" "guess" n none

def guessed (n : Nat) : State := ((logins (fun _ _ => false)).exec fresh (guesses n)).getD fresh

theorem exec_guesses {n : Nat} (hn : n ≤ 5) :
    (logins (fun _ _ => false)).exec fresh (guesses n) = some (guessed n) := by
  have hall : ∀ n ≤ 5, ((logins (fun _ _ => false)).exec fresh (guesses n)).isSome = true := by
    decide +kernel
  obtain ⟨s, hs⟩ := Option.isSome_iff_exists.mp (hall n hn)
  rw [guessed, hs]
  rfl

theorem idle_guessed {n : Nat} (hn : n ≤ 5) : ∀ m l, ¬ Flying "203.0.113.7" (guessed n) m l := by
  intro m l hfl
  by_cases hm : m < 10
  · have hall : ∀ n ≤ 5, ∀ m < 10, ((guessed n).logins m).all
        (fun l => !(l.clientIp = "203.0.113.7" && l.phase.inFlight)) = true := by decide +kernel
    have hnone := hall n hn m hm
    rw [hfl.1] at hnone
    simp [hfl.2.1, hfl.2.2] at hnone
  · have hnum : ∀ n ≤ 5, ∀ a ∈ guesses n, a.login < 10 := by decide +kernel
    have hsame := logins_exec (exec_guesses hn) (m := m)
      (fun a ha heq => hm (heq ▸ hnum n hn a ha))
    cases hsame.symm.trans hfl.1

theorem meets_guesses : ∀ n ≤ 5, (logins (fun _ _ => false)).Meets (Sequential "203.0.113.7") fresh
    (guesses n) := by
  intro n
  induction n with
  | zero =>
    intro _
    have hother : "198.51.100.1" ≠ "203.0.113.7" := by decide
    exact ⟨⟨fun heq => absurd heq hother, trivial⟩, fun _ _ => trivial⟩
  | succ n ih =>
    intro hn
    have hle : n ≤ 5 := Nat.le_of_succ_le hn
    have hroom : ∀ n ≤ 5, (guessed n).tracker.failures.entries.length < maxTrackedUsernames := by
      decide +kernel
    exact (ih hle).append (exec_guesses hle)
      (meets_attempt (idle_guessed hle) (hroom n hle) n _ _ _ _)

theorem guesses_bounded_five :
    BruteForceBound ((guessed 5).logOf "203.0.113.7") ∧
    ((guessed 5).logOf "203.0.113.7").countP (wrongDuring 0) = 5 ∧
    checkLogin "203.0.113.7" (guessed 5) 5 = .rejected :=
  ⟨guesses_bounded _ _ _ (Machine.reach_of_meets starting_fresh (meets_guesses 5 (Nat.le_refl 5))
    (exec_guesses (Nat.le_refl 5))), by decide +kernel, by decide +kernel⟩

/-- Six logins that all test the lock before any of them has failed. -/
def burst : List Act :=
  (List.range 6).map (fun n => .check n "203.0.113.7" "admin" "guess" 0) ++
    (List.range 6).map (fun n => .find n none) ++ (List.range 6).map .verify

theorem burst_of_guesses : ¬ ∀ verify clientIp,
    (logins verify).Always Machine.anything (fun s => BruteForceBound (s.logOf clientIp)) := by
  intro h
  have hrun : ((logins (fun _ _ => false)).exec fresh burst).map (·.logOf "203.0.113.7") =
      some (List.replicate 6 (.verified 0 false)) := by
    decide
  obtain ⟨s, hs, hlog⟩ := Option.map_eq_some_iff.mp hrun
  have hbound := h _ "203.0.113.7" s (Machine.reach_of_exec starting_fresh hs)
  have hwrong := hbound.wrong 0 (by rw [hlog]; intro t ht; cases List.eq_of_mem_replicate ht)
  rw [hlog] at hwrong
  exact absurd hwrong (by decide)

end Admin
end GreenRelay
