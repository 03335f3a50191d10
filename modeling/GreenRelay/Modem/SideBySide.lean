/-
Two sessions with the same modem.

The modem keeps one text in the first run and another in the second.  Both are
innocuous, and so the two connections are the same whenever no answer with the
text is on its way.  `Alike` says that a program keeps it so, and this
module shows it of everything that does not ask for stored messages: status
refresh, character sets and outbound messages.
-/
import GreenRelay.Lib.Relational
import GreenRelay.Modem.Device

namespace GreenRelay
namespace Modem

open Sms Scripted

variable {σ : Type}

/-- Against the two texts the programs do the same, as far as it is visible.  The
connections stay equal, and `I` holds of the unread lines, or `J` where the
programs fail. -/
def AlikeUnder {α : Type} (d : Device σ) (text₁ text₂ : String) (I J : List String → Prop)
    (p q : Prog α) : Prop :=
  Lockstep (d.monitor text₁) (d.monitor text₂) (visible d.shows)
    (fun x y => x = y ∧ I x.unread) (fun x y => x = y ∧ J x.unread) p q

/-- No result is unread. -/
def NoResult (unread : List String) : Prop := results unread = 0

/-- An error may leave a result unread. -/
abbrev Alike {α : Type} (d : Device σ) (text₁ text₂ : String) (p q : Prog α) : Prop :=
  AlikeUnder d text₁ text₂ NoResult Anything p q

section Sessions

variable {d : Device σ} {text₁ text₂ : String} {I J : List String → Prop}

theorem alike_pure {α : Type} (a : α) : AlikeUnder d text₁ text₂ I J (pure a) (pure a) :=
  lockstep_pure a

theorem alike_bind {α β : Type} {p q : Prog α} {k l : α → Prog β}
    (hp : AlikeUnder d text₁ text₂ I J p q) (hk : ∀ a, AlikeUnder d text₁ text₂ I J (k a) (l a)) :
    AlikeUnder d text₁ text₂ I J (p >>= k) (q >>= l) :=
  lockstep_bind hp hk

theorem AlikeUnder.weaken {α : Type} {p q : Prog α} (h : AlikeUnder d text₁ text₂ I J p q) :
    AlikeUnder d text₁ text₂ I Anything p q :=
  rel_conseq h (fun _ _ h => h) (fun _ _ _ _ h => h) (fun _ _ h => ⟨h.1, trivial⟩)

/-! ## Operations -/

/-- Events of which the connection takes no notice. -/
theorem alike_emit {e f : Event} (hobs : visible d.shows e = visible d.shows f)
    (he : ∀ text p, d.next text p e = some p) (hf : ∀ text p, d.next text p f = some p) :
    AlikeUnder d text₁ text₂ I J (emit e) (emit f) := by
  refine lockstep_emit hobs (fun x y x' y' hxy hx hy => ?_)
  obtain rfl : x = x' := Option.some.inj ((he text₁ x).symm.trans hx)
  obtain rfl : y = y' := Option.some.inj ((hf text₂ y).symm.trans hy)
  exact hxy

/-- The rest of the world gives both runs the same answer. -/
theorem ask_alike {ρ : Type} [DecidableEq ρ] {f : Answer → ρ} {r r' : ρ} {x y x' y' : Connection σ}
    (hxy : x = y ∧ I x.unread) (hx : x.ask f r = some x') (hy : y.ask f r' = some y') :
    r = r' ∧ x' = y' ∧ I x'.unread := by
  obtain ⟨rfl, hI⟩ := hxy
  obtain ⟨hr, hport, -, hunread⟩ := Connection.ask_unique hx hy
  exact ⟨hr, hport, by rwa [hunread]⟩

theorem alike_audit (eventType detail : String) :
    AlikeUnder d text₁ text₂ I J (audit eventType detail) (audit eventType detail) := by
  refine lockstep_perform (fun a b x y x' y' hxy hx hy => ?_)
  obtain ⟨hr, hport⟩ := ask_alike hxy hx hy
  exact ⟨by rw [hr], rfl, hport⟩

theorem alike_refreshDue : AlikeUnder d text₁ text₂ I J refreshDue refreshDue := by
  refine lockstep_perform (fun a b x y x' y' hxy hx hy => ?_)
  obtain ⟨hr, hport⟩ := ask_alike hxy hx hy
  exact ⟨by rw [hr], hr, hport⟩

theorem unstored_of_not_shows (hshows : d.ShowsStored) {command : String}
    (h : d.shows command = false) (s : σ) : .stored ∉ (d.react s (.command command)).2 := by
  intro hstored
  obtain ⟨command', hout, hshown⟩ := hshows.asked s _ hstored
  injection hout with hout
  rw [← hout, h] at hshown
  cases hshown

theorem unstored_of_not_command (hshows : d.ShowsStored) {out : Output}
    (hout : ∀ command, out ≠ .command command) (s : σ) : .stored ∉ (d.react s out).2 := by
  intro hstored
  obtain ⟨command, hcommand, -⟩ := hshows.asked s out hstored
  exact hout command hcommand

/-- A write whose answer does not show the stored text.  `A` and `B` say what
holds of the connection before and after it. -/
theorem rel_writeBytes {A B : Connection σ → Prop} (h₁ : Innocuous text₁) {out : Output}
    (hout : ∀ s, .stored ∉ (d.react s out).2)
    (hAB : ∀ p p', A p → p'.modem = (d.react p.modem out).1 →
      results p'.unread = results p.unread + (d.react p.modem out).2.countP Item.isResult → B p')
    (hJ : ∀ p, A p → J p.unread) :
    RelTriple (d.monitor text₁) (d.monitor text₂) (visible d.shows) (fun x y => x = y ∧ A x)
      (writeBytes out) (writeBytes out) (fun _ _ x y => x = y ∧ B x)
      (fun x y => x = y ∧ J x.unread) := by
  refine rel_perform (fun a b x y x' y' hxy hx hy => ?_)
  obtain ⟨rfl, hA⟩ := hxy
  obtain ⟨q, hq, hx'⟩ := Option.map_eq_some_iff.mp hx
  obtain ⟨q', hq', hy'⟩ := Option.map_eq_some_iff.mp hy
  obtain ⟨hr, rfl, hmodem, hunread⟩ := Connection.ask_unique hq hq'
  refine ⟨by rw [hr], ?_⟩
  rw [← hr] at hy' ⊢
  cases ha : a.write with
  | ok =>
    rw [ha] at hx' hy'
    have hsame : x' = y' := by
      rw [← hx', ← hy', Device.written, Device.written, Device.hear, Device.hear,
        expand_of_unstored (hout q.modem) text₁ text₂]
    refine ⟨hsame, hAB x x' hA ?_ ?_⟩
    · rw [← hx', ← hmodem]
      rfl
    · rw [← hx', Device.written, Device.hear, results_append, hunread, hmodem, results_expand h₁]
  | ioError n =>
    rw [ha] at hx' hy'
    refine ⟨hx'.symm.trans hy', ?_⟩
    rw [← hx', Device.written, hunread]
    exact hJ x hA

theorem silent_collectUntilTerminator (command : String) :
    Silent (visible d.shows) (collectUntilTerminator command) :=
  silent_collect (fun _ => rfl) command

theorem rel_collect {A B : Connection σ → Prop} (command : String)
    (hAB : ∀ p, A p → B (d.collect command [] p).2) :
    RelTriple (d.monitor text₁) (d.monitor text₂) (visible d.shows) (fun x y => x = y ∧ A x)
      (collectUntilTerminator command) (collectUntilTerminator command)
      (fun e f x y => e = f ∧ x = y ∧ B x) (fun x y => x = y ∧ J x.unread) := by
  refine rel_of_silent (silent_collectUntilTerminator command)
    (silent_collectUntilTerminator command) (d.triple_collect text₁ command)
    (d.triple_collect text₂ command) (fun x y hxy => ?_)
  obtain ⟨rfl, hA⟩ := hxy
  exact ⟨rfl, rfl, hAB x hA⟩

/-! ## Exchanges -/

/-- The end of an exchange. -/
theorem rel_exchanged {P : Connection σ → Connection σ → Prop}
    {Q : AtExchange → AtExchange → Connection σ → Connection σ → Prop} {e f : AtExchange}
    (hveiled : e.veiled d.shows = f.veiled d.shows) (hQ : ∀ x y, P x y → Q e f x y) :
    RelTriple (d.monitor text₁) (d.monitor text₂) (visible d.shows) P
      (emit (.exchanged e) >>= fun _ => pure e) (emit (.exchanged f) >>= fun _ => pure f) Q
      (fun x y => x = y ∧ J x.unread) := by
  refine rel_bind (Q := fun _ _ => P) (rel_emit ?_ (fun x y x' y' hxy hx hy => ?_))
    (fun _ _ => rel_pure hQ)
  · rw [visible, visible, hveiled]
  · obtain rfl : x = x' := Option.some.inj hx
    obtain rfl : y = y' := Option.some.inj hy
    exact hxy

/-- A command that does not ask for stored messages. -/
theorem alike_exchange_under (htime : d.InTime) (hshows : d.ShowsStored) (h₁ : Innocuous text₁)
    {command : String} (hcommand : d.shows command = false)
    (hI : ∀ p p' : Connection σ, I p.unread → results p'.unread = results p.unread + 1 →
      I (d.collect command [] p').2.unread) :
    AlikeUnder d text₁ text₂ I I (exchange command) (exchange command) := by
  unfold exchange
  refine rel_bind (rel_writeBytes (A := fun p => I p.unread) h₁
    (unstored_of_not_shows hshows hcommand)
    (B := fun p' => ∃ p : Connection σ, I p.unread ∧ results p'.unread = results p.unread + 1)
    (fun p p' hp _ hcount => ⟨p, hp, by rw [hcount, htime.command]⟩) (fun p hp => hp))
    (fun _ _ => ?_)
  refine rel_bind (rel_collect (B := fun p => I p.unread) command (fun p' hp' => ?_))
    (fun e f => ?_)
  · obtain ⟨p, hp, hcount⟩ := hp'
    exact hI p p' hp hcount
  · refine rel_pure_pre (fun hef => ?_)
    subst hef
    exact rel_exchanged rfl (fun x y hxy => ⟨rfl, hxy⟩)

theorem alike_setCharset
    (hx : ∀ command ∈ ownCommands, AlikeUnder d text₁ text₂ I J
      (exchange command) (exchange command))
    {cscs csmp : String} (hcscs : "AT+CSCS=\"" ++ cscs ++ "\"" ∈ ownCommands)
    (hcsmp : "AT+CSMP=" ++ csmp ∈ ownCommands) :
    AlikeUnder d text₁ text₂ I J (setCharset cscs csmp) (setCharset cscs csmp) :=
  alike_bind (hx _ hcscs) (fun _ => alike_bind (hx _ hcsmp) (fun _ => alike_pure ()))

section Settling

variable (htime : d.InTime) (hshows : d.ShowsStored) (h₁ : Innocuous text₁)
include htime hshows h₁

theorem alike_exchange {command : String} (hcommand : d.shows command = false) :
    AlikeUnder d text₁ text₂ NoResult NoResult (exchange command) (exchange command) :=
  alike_exchange_under htime hshows h₁ hcommand (fun p p' hp hcount => by
    have hempty : results p.unread = 0 := hp
    exact Device.results_collect htime command [] (by omega))

theorem alike_own : ∀ command ∈ ownCommands,
    AlikeUnder d text₁ text₂ NoResult NoResult (exchange command) (exchange command) :=
  fun command hcommand => alike_exchange htime hshows h₁ (hshows.own command hcommand)

/-- After an error the unread lines may hold a result, and then it is taken for
the answer, in both runs. -/
theorem alike_own_after_error : ∀ command ∈ ownCommands,
    AlikeUnder d text₁ text₂ Anything Anything (exchange command) (exchange command) :=
  fun command hcommand => alike_exchange_under htime hshows h₁ (hshows.own command hcommand)
    (fun _ _ _ _ => trivial)

/-! ## Status -/

theorem alike_refreshStatus : Alike d text₁ text₂ refreshStatus refreshStatus := by
  have hx : ∀ command ∈ ownCommands, Alike d text₁ text₂ (exchange command) (exchange command) :=
    fun command hcommand => (alike_own htime hshows h₁ command hcommand).weaken
  unfold refreshStatus
  refine alike_bind (hx _ (by decide)) (fun cpin => alike_bind (hx _ (by decide)) (fun creg => ?_))
  refine alike_bind (hx _ (by decide)) (fun csq => alike_bind (hx _ (by decide)) (fun cops => ?_))
  exact alike_bind (alike_emit rfl (fun _ _ => rfl) (fun _ _ => rfl)) (fun _ => alike_pure _)

theorem alike_refreshIfDue (s : SessionState) :
    Alike d text₁ text₂ (refreshIfDue s) (refreshIfDue s) := by
  unfold refreshIfDue
  refine alike_bind (p := dueForRefresh s) ?_ (fun due => ?_)
  · unfold dueForRefresh
    cases s.refreshed with
    | true => exact alike_refreshDue
    | false => exact alike_pure true
  · cases due with
    | true => exact alike_bind (alike_refreshStatus htime hshows h₁) (fun _ => alike_pure _)
    | false => exact alike_pure s

/-! ## Outbound messages -/

/-- The ESC, where it adds no more than one result to what is unread. -/
theorem rel_abortToCommandMode {A : Connection σ → Prop}
    (hA : ∀ p, A p → results p.unread + (d.react p.modem .abort).2.countP Item.isResult ≤ 1) :
    RelTriple (d.monitor text₁) (d.monitor text₂) (visible d.shows) (fun x y => x = y ∧ A x)
      abortToCommandMode abortToCommandMode (fun _ _ x y => x = y ∧ NoResult x.unread)
      (fun x y => x = y ∧ Anything x.unread) := by
  unfold abortToCommandMode
  refine rel_bind (rel_writeBytes h₁
    (unstored_of_not_command hshows (fun _ h => by cases h))
    (B := fun p => results p.unread ≤ 1) (fun p p' hp _ hcount => ?_) (fun _ _ => trivial))
    (fun _ _ => ?_)
  · rw [hcount]
    exact hA p hp
  · refine rel_bind (rel_collect (B := fun p => NoResult p.unread) "ESC"
      (fun p hp => Device.results_collect htime "ESC" [] hp)) (fun _ _ => ?_)
    exact rel_pure (fun x y hxy => hxy.2)

/-- What is unread after the header is at most the refusal. -/
def Answered (d : Device σ) (p : Connection σ) : Prop :=
  results p.unread ≤ if d.refused p.modem then 1 else 0

omit h₁ htime hshows in
/-- The wait for the prompt drops unread lines or leaves them. -/
theorem rel_waitForPrompt : RelTriple (d.monitor text₁) (d.monitor text₂) (visible d.shows)
    (fun x y => x = y ∧ Answered d x) waitForPrompt waitForPrompt
    (fun seen seen' x y => seen = seen' ∧ x = y ∧ Answered d x)
    (fun x y => x = y ∧ Anything x.unread) := by
  refine rel_perform (fun a b x y x' y' hxy hx hy => ?_)
  obtain ⟨rfl, hanswered⟩ := hxy
  obtain ⟨ha, hx'⟩ : a.prompt = d.promptReply x ∧
      { x with unread := x.unread.drop a.prompt.dropped.length } = x' := by
    simpa [Device.monitor, Device.next] using hx
  obtain ⟨hb, hy'⟩ : b.prompt = d.promptReply x ∧
      { x with unread := x.unread.drop b.prompt.dropped.length } = y' := by
    simpa [Device.monitor, Device.next] using hy
  have hsame : x' = y' := by rw [← hx', ← hy', ha, hb]
  have hless : Answered d x' := by
    have hsublist := (List.drop_sublist a.prompt.dropped.length x.unread).countP_le (p := isResult)
    rw [← hx']
    exact Nat.le_trans hsublist hanswered
  refine ⟨by rw [ha, hb], ?_⟩
  rw [ha, hb, Device.promptReply]
  cases d.prompt x.modem x.unread with
  | none => exact ⟨rfl, hsame, hless⟩
  | some n => exact ⟨rfl, hsame, hless⟩

omit hshows h₁ in
theorem Answered.abort {p : Connection σ} (h : Answered d p) :
    results p.unread + (d.react p.modem .abort).2.countP Item.isResult ≤ 1 := by
  have habort := htime.abort p.modem
  unfold Answered at h
  cases hrefused : d.refused p.modem <;> rw [hrefused] at h habort <;>
    simp only [if_true, Bool.false_eq_true, if_false] at h habort <;> omega

omit hshows h₁ in
theorem Answered.body {p : Connection σ} (h : Answered d p) (part : String)
    (encoding : SmsEncoding) :
    results p.unread + (d.react p.modem (.body part encoding)).2.countP Item.isResult ≤ 1 := by
  rw [htime.body]
  unfold Answered at h
  cases hrefused : d.refused p.modem <;> rw [hrefused] at h <;>
    simp only [if_true, Bool.false_eq_true, if_false] at h ⊢ <;> omega

theorem rel_submitBody (part : String) (encoding : SmsEncoding) :
    RelTriple (d.monitor text₁) (d.monitor text₂) (visible d.shows)
      (fun x y => x = y ∧ Answered d x) (submitBody part encoding) (submitBody part encoding)
      (fun e f x y => e = f ∧ x = y ∧ NoResult x.unread)
      (fun x y => x = y ∧ Anything x.unread) := by
  unfold submitBody
  refine rel_bind (rel_writeBytes h₁ (unstored_of_not_command hshows (fun _ h => by cases h))
    (B := fun p => results p.unread ≤ 1) (fun p p' hp _ hcount => ?_) (fun _ _ => trivial))
    (fun _ _ => ?_)
  · rw [hcount]
    exact hp.body htime part encoding
  · refine rel_bind (rel_collect (B := fun p => NoResult p.unread) "AT+CMGS"
      (fun p hp => Device.results_collect htime "AT+CMGS" [] hp)) (fun e f => ?_)
    refine rel_pure_pre (fun hef => ?_)
    subst hef
    have hdone : RelTriple (d.monitor text₁) (d.monitor text₂) (visible d.shows)
        (fun x y => x = y ∧ NoResult x.unread) (pure e : Prog AtExchange) (pure e)
        (fun e f x y => e = f ∧ x = y ∧ NoResult x.unread)
        (fun x y => x = y ∧ Anything x.unread) :=
      rel_pure (fun _ _ h => ⟨rfl, h⟩)
    split
    · -- The collection has run dry, so the answer to the ESC is all there is.
      refine rel_bind (rel_abortToCommandMode htime hshows h₁ (fun p hp => ?_)) (fun _ _ => hdone)
      have hempty : results p.unread = 0 := hp
      have habort := htime.abort p.modem
      have hle : (if d.refused p.modem then 0 else 1) ≤ 1 := by split <;> omega
      omega
    · exact hdone

theorem alike_sendSmsPart (toNumber part : String) (encoding : SmsEncoding) :
    Alike d text₁ text₂ (sendSmsPart toNumber part encoding)
      (sendSmsPart toNumber part encoding) := by
  unfold sendSmsPart
  refine rel_bind (rel_writeBytes h₁ (unstored_of_not_command hshows (fun _ h => by cases h))
    (B := Answered d) (fun p p' hp hmodem hcount => ?_) (fun _ _ => trivial)) (fun _ _ => ?_)
  · have hempty : results p.unread = 0 := hp
    unfold Answered
    have hheader := htime.header p.modem toNumber encoding
    rw [hcount, hmodem]
    omega
  refine rel_bind rel_waitForPrompt (fun seen seen' => rel_pure_pre (fun hseen => ?_))
  subst hseen
  cases seen with
  | true => exact rel_submitBody htime hshows h₁ part encoding
  | false =>
    refine rel_bind (rel_abortToCommandMode htime hshows h₁ (fun p hp => hp.abort htime))
      (fun _ _ => ?_)
    exact alike_pure _

theorem alike_sendAttempts (cfg : Config) (toNumber part : String) (encoding : SmsEncoding)
    (left : Nat) (lastCode : Option Nat) :
    Alike d text₁ text₂ (sendAttempts cfg toNumber part encoding left lastCode)
      (sendAttempts cfg toNumber part encoding left lastCode) := by
  induction left generalizing lastCode with
  | zero => exact alike_bind (alike_audit _ _) (fun _ => alike_pure _)
  | succ left ih =>
    unfold sendAttempts
    refine alike_bind (alike_sendSmsPart htime hshows h₁ toNumber part encoding) (fun e => ?_)
    refine alike_bind (alike_emit rfl (fun _ _ => rfl) (fun _ _ => rfl)) (fun _ => ?_)
    simp only
    split
    · exact alike_pure _
    · split
      · exact alike_bind (alike_audit _ _) (fun _ => alike_pure _)
      · refine alike_bind (p := retryPause cfg (left == 0)) ?_ (fun _ => ih _)
        unfold retryPause
        split
        · exact alike_pure ()
        · exact alike_emit rfl (fun _ _ => rfl) (fun _ _ => rfl)

theorem alike_sendAllSegments (cfg : Config) (toNumber : String) (segments : List Segment)
    (encoding : SmsEncoding) :
    Alike d text₁ text₂ (sendAllSegments cfg toNumber segments encoding)
      (sendAllSegments cfg toNumber segments encoding) := by
  have hfrom : ∀ reference, Alike d text₁ text₂
      (sendAllSegmentsFrom cfg toNumber encoding segments reference)
      (sendAllSegmentsFrom cfg toNumber encoding segments reference) := by
    induction segments with
    | nil => exact fun reference => alike_pure _
    | cons segment segments ih =>
      intro reference
      unfold sendAllSegmentsFrom
      refine alike_bind (alike_sendAttempts htime hshows h₁ cfg toNumber segment.text encoding _ _)
        (fun result => ?_)
      cases result.status with
      | sent => exact ih result.reference
      | queued => exact alike_pure result
      | failed => exact alike_pure result
  exact hfrom none

theorem alike_sendEncoded (cfg : Config) (toNumber : String) (segments : List Segment)
    (encoding : SmsEncoding) :
    Alike d text₁ text₂ (sendEncoded cfg toNumber segments encoding)
      (sendEncoded cfg toNumber segments encoding) := by
  have hown : ∀ command ∈ ownCommands,
      AlikeUnder d text₁ text₂ NoResult NoResult (exchange command) (exchange command) :=
    alike_own htime hshows h₁
  unfold sendEncoded
  refine alike_bind (hown _ (by decide)).weaken (fun _ => ?_)
  cases encoding with
  | gsm7 => exact alike_sendAllSegments htime hshows h₁ cfg toNumber segments .gsm7
  | ucs2 =>
    refine alike_bind (alike_setCharset hown (by decide) (by decide)).weaken (fun _ => ?_)
    -- An error of the restore is dropped, and it leaves nothing unread either.
    refine rel_attempt_bind (alike_sendAllSegments htime hshows h₁ cfg toNumber segments .ucs2)
      (fun result result' => rel_pure_pre (fun hresult => ?_)) ?_
    · subst hresult
      exact rel_attempt_bind (alike_setCharset hown (by decide) (by decide))
        (fun _ _ => rel_pure (fun _ _ h => ⟨rfl, h.2⟩)) (rel_pure (fun _ _ h => ⟨rfl, h⟩))
    · exact rel_attempt_bind (alike_setCharset (alike_own_after_error htime hshows h₁)
        (by decide) (by decide)) (fun _ _ => rel_fail (fun _ _ h => h.2))
        (rel_fail (fun _ _ h => h))

theorem alike_handleSend (cfg : Config) (status : ModemStatusSnapshot) (toNumber body : String) :
    Alike d text₁ text₂ (handleSend cfg status toNumber body)
      (handleSend cfg status toNumber body) := by
  unfold handleSend
  split
  · split
    · exact alike_sendEncoded htime hshows h₁ cfg toNumber _ _
    · exact alike_bind (alike_audit _ _) (fun _ => alike_pure _)
  · exact alike_pure _

end Settling

end Sessions

end Modem
end GreenRelay
