/-
What the text of a stored message can do to a session.

The answer to a command that asks for the message shows its text, and for the
time of that exchange the connections of two runs with different texts differ.
With innocuous texts the exchange ends at the modem's own result and announces
what the modem announces, and the sender is read from the modem's header, so
the two runs meet again.  A text with a line that reads as a result code or as a
notification takes part in the dialogue.
-/
import GreenRelay.Modem.SideBySide

namespace GreenRelay
namespace Modem

open Text Sms Scripted

variable {σ : Type}

/-! ## Responses with the text -/

/-- An answer at its result.  The text stands before it. -/
theorem answer_split {items : List Item} (hone : items.countP Item.isResult = 1)
    (hended : ∀ pre post, items = pre ++ .stored :: post → ∃ item ∈ post, item.isResult = true) :
    ∃ before last result after, items = before ++ .line last :: after ∧
      classifyLine last = .terminator result ∧ before.countP Item.isResult = 0 ∧
      after.countP Item.isResult = 0 ∧ .stored ∉ after := by
  obtain ⟨item, hmem, hitem⟩ := List.countP_pos_iff.mp
    (show 0 < items.countP Item.isResult by omega)
  obtain ⟨before, after, rfl⟩ := List.append_of_mem hmem
  have hcount : before.countP Item.isResult = 0 ∧ after.countP Item.isResult = 0 := by
    rw [List.countP_append, List.countP_cons, if_pos hitem] at hone
    omega
  have hafter : .stored ∉ after := by
    intro hstored
    obtain ⟨pre, post, rfl⟩ := List.append_of_mem hstored
    obtain ⟨other, hother, hresult⟩ := hended (before ++ item :: pre) post (by simp)
    refine List.countP_eq_zero.mp hcount.2 other ?_ hresult
    exact List.mem_append_right _ (List.mem_cons_of_mem _ hother)
  cases item with
  | stored => cases hitem
  | line last =>
    cases hlast : classifyLine last with
    | terminator result => exact ⟨before, last, result, after, rfl, hlast, hcount.1, hcount.2,
      hafter⟩
    | nonTerminating =>
      have hnot : isResult last = true := hitem
      rw [isResult, hlast] at hnot
      cases hnot

/-- The lines that are collected from an answer up to its result. -/
def collectedLines (unread : List String) (text : String) (before : List Item) (last : String) :
    List String :=
  (unread ++ expand text before).filter (fun l => !isBlank l) ++ [last]

theorem collect_answer (d : Device σ) (command : String) {text : String} (h : Innocuous text)
    {unread : List String} (hunread : NoResult unread) {before after : List Item} {last : String}
    {result : AtResult} (hlast : classifyLine last = .terminator result)
    (hbefore : before.countP Item.isResult = 0) {x : Connection σ}
    (hx : x.unread = unread ++ expand text (before ++ .line last :: after)) :
    d.collect command [] x = (⟨command, collectedLines unread text before last, result⟩,
      { x with unread := expand text after }) := by
  have hresults : results (unread ++ expand text before) = 0 := by
    rw [results_append, results_expand h, hbefore, show results unread = 0 from hunread]
  have hlines : x.unread = (unread ++ expand text before) ++ last :: expand text after := by
    rw [hx, expand_append, List.append_assoc]
    rfl
  rw [Device.collect, hlines, collectLines_result command [] hresults hlast]
  rfl

theorem indices_collectedLines {text₁ text₂ : String} (h₁ : Innocuous text₁)
    (h₂ : Innocuous text₂) (unread : List String) (before : List Item) (last : String) :
    indices (collectedLines unread text₁ before last) =
      indices (collectedLines unread text₂ before last) := by
  have hexpand := indices_expand h₁ h₂ before
  unfold indices at hexpand ⊢
  rw [collectedLines, collectedLines, List.filterMap_append, List.filterMap_append,
    List.filter_append, List.filter_append, List.filterMap_append, List.filterMap_append, hexpand]

/-- Responses that are the same up to a header have the same sender. -/
theorem sender_of_header {before : List String} {header : String} (hline : IsLine header.toList)
    (hheader : IsCmgrHeader header.toList) {e f : AtExchange} {after after' : List String}
    (he : e.lines = before ++ header :: after) (hf : f.lines = before ++ header :: after')
    (hafter : after ≠ []) (hafter' : after' ≠ []) :
    (parseCmgr e.response).map ParsedInbound.sender =
      (parseCmgr f.response).map ParsedInbound.sender := by
  obtain ⟨first, hfirst, hlines⟩ := exists_lines_join (before.map String.toList) hline
  have hresponse : ∀ {g : AtExchange} {after : List String}, g.lines = before ++ header :: after →
      after ≠ [] →
        lines g.response.toList = first ++ lines (join ['\n'] (after.map String.toList)) := by
    intro g after hg hafter
    rw [AtExchange.response, String.toList_ofList, hg, List.map_append, List.map_cons]
    exact hlines _ (by simpa using hafter)
  rw [parseCmgr_sender (hresponse he hafter) hfirst hheader,
    parseCmgr_sender (hresponse hf hafter') hfirst hheader]

/-- The sender is read from what the modem says before the text. -/
theorem sender_collectedLines (text₁ text₂ : String) (unread : List String) {before : List Item}
    (last : String) (command : String) (result : AtResult)
    (hheaded : ∀ pre post, before = pre ++ .stored :: post →
      ∃ header, .line header ∈ pre ∧ IsLine header.toList ∧ IsCmgrHeader header.toList) :
    (parseCmgr (AtExchange.response
        ⟨command, collectedLines unread text₁ before last, result⟩)).map ParsedInbound.sender =
      (parseCmgr (AtExchange.response
        ⟨command, collectedLines unread text₂ before last, result⟩)).map ParsedInbound.sender := by
  by_cases hstored : .stored ∈ before
  · obtain ⟨pre, post, rfl, hpre⟩ := List.eq_append_cons_of_mem hstored
    obtain ⟨header, hmem, hline, hheader⟩ := hheaded pre post rfl
    obtain ⟨pre₁, pre₂, rfl⟩ := List.append_of_mem hmem
    have hpre₁ : .stored ∉ pre₁ := fun h => hpre (List.mem_append_left _ h)
    have hsplit : ∀ text,
        collectedLines unread text ((pre₁ ++ .line header :: pre₂) ++ .stored :: post) last =
          (unread ++ expand text₁ pre₁).filter (fun l => !isBlank l) ++ header ::
            ((expand text (pre₂ ++ .stored :: post)).filter (fun l => !isBlank l) ++ [last]) := by
      intro text
      have hexpand : expand text ((pre₁ ++ .line header :: pre₂) ++ .stored :: post) =
          expand text₁ pre₁ ++ header :: expand text (pre₂ ++ .stored :: post) := by
        rw [List.append_assoc, expand_append, expand_of_unstored hpre₁ text text₁]
        rfl
      rw [collectedLines, hexpand, ← List.append_assoc, List.filter_append, List.filter_cons,
        isBlank_of_isCmgrHeader hheader]
      simp
    exact sender_of_header hline hheader (hsplit text₁) (hsplit text₂) (by simp) (by simp)
  · rw [collectedLines, collectedLines, expand_of_unstored hstored text₁ text₂]

/-! ## Exchanges that show the text -/

/-- Responses that mean the same to a session. -/
structure SameMeaning (shows : String → Bool) (command : String) (e f : AtExchange) : Prop where
  veiled : e.veiled shows = f.veiled shows
  result : e.result = f.result
  announced : indices e.lines = indices f.lines
  sender : ∀ index, command = cmgrCommand index →
    e.inbound.map ParsedInbound.sender = f.inbound.map ParsedInbound.sender

theorem SameMeaning.refl (shows : String → Bool) (command : String) (e : AtExchange) :
    SameMeaning shows command e e :=
  ⟨rfl, rfl, rfl, fun _ _ => rfl⟩

theorem inbound_sender {e f : AtExchange} (hresult : e.result = f.result)
    (hsender : (parseCmgr e.response).map ParsedInbound.sender =
      (parseCmgr f.response).map ParsedInbound.sender) :
    e.inbound.map ParsedInbound.sender = f.inbound.map ParsedInbound.sender := by
  rw [AtExchange.inbound, AtExchange.inbound, hresult]
  split
  · exact hsender
  · rfl

section Sessions

variable {d : Device σ} {text₁ text₂ : String}

/-- The answer to a command is on its way, with one text and with the other. -/
def Answering (d : Device σ) (text₁ text₂ command : String) (x y : Connection σ) : Prop :=
  ∃ s unread, NoResult unread ∧ x.modem = y.modem ∧ x.answers = y.answers ∧
    x.unread = unread ++ expand text₁ (d.react s (.command command)).2 ∧
    y.unread = unread ++ expand text₂ (d.react s (.command command)).2

theorem rel_write_answering (command : String) :
    RelTriple (d.monitor text₁) (d.monitor text₂) (visible d.shows)
      (fun x y => x = y ∧ NoResult x.unread) (writeBytes (.command command))
      (writeBytes (.command command)) (fun _ _ => Answering d text₁ text₂ command)
      (fun x y => x = y ∧ Anything x.unread) := by
  refine rel_perform (fun a b x y x' y' hxy hx hy => ?_)
  obtain ⟨rfl, hunread⟩ := hxy
  obtain ⟨q, hq, hx'⟩ := Option.map_eq_some_iff.mp hx
  obtain ⟨q', hq', hy'⟩ := Option.map_eq_some_iff.mp hy
  obtain ⟨hr, rfl, -, hsame⟩ := Connection.ask_unique hq hq'
  refine ⟨by rw [hr], ?_⟩
  rw [← hr] at hy' ⊢
  cases ha : a.write with
  | ok =>
    rw [ha] at hx' hy'
    subst hx' hy'
    exact ⟨q.modem, q.unread, by rwa [hsame], rfl, rfl, rfl, rfl⟩
  | ioError n =>
    rw [ha] at hx' hy'
    exact ⟨hx'.symm.trans hy', trivial⟩

/-- What the two runs collect means the same, and they meet again. -/
theorem collect_answering (htime : d.InTime) (hshows : d.ShowsStored) (h₁ : Innocuous text₁)
    (h₂ : Innocuous text₂) {command : String} (hcommand : d.shows command = true)
    {x y : Connection σ} (h : Answering d text₁ text₂ command x y) :
    SameMeaning d.shows command (d.collect command [] x).1 (d.collect command [] y).1 ∧
      (d.collect command [] x).2 = (d.collect command [] y).2 ∧
      NoResult (d.collect command [] x).2.unread := by
  obtain ⟨s, unread, hunread, hmodem, hanswers, hx, hy⟩ := h
  obtain ⟨before, last, result, after, hitems, hlast, hbefore, hafter, hstored⟩ :=
    answer_split (htime.command s command) (hshows.ended s command)
  rw [hitems] at hx hy
  rw [collect_answer d command h₁ hunread hlast hbefore hx,
    collect_answer d command h₂ hunread hlast hbefore hy]
  refine ⟨⟨?_, rfl, indices_collectedLines h₁ h₂ unread before last, ?_⟩, ?_, ?_⟩
  · simp [AtExchange.veiled, hcommand]
  · intro index hindex
    subst hindex
    refine inbound_sender rfl (sender_collectedLines text₁ text₂ unread last _ _
      (fun pre post hpre => ?_))
    refine hshows.headed s index pre (post ++ .line last :: after) ?_
    rw [hitems, hpre, List.append_assoc]
    rfl
  · obtain ⟨modem, lines, answers⟩ := x
    obtain ⟨modem', lines', answers'⟩ := y
    simp only at hmodem hanswers ⊢
    rw [hmodem, hanswers, expand_of_unstored hstored text₁ text₂]
  · show results (expand text₁ after) = 0
    rw [results_expand h₁, hafter]

/-- Any exchange, whether or not it shows the text. -/
theorem rel_exchange (htime : d.InTime) (hshows : d.ShowsStored) (h₁ : Innocuous text₁)
    (h₂ : Innocuous text₂) (command : String) :
    RelTriple (d.monitor text₁) (d.monitor text₂) (visible d.shows)
      (fun x y => x = y ∧ NoResult x.unread) (exchange command) (exchange command)
      (fun e f x y => SameMeaning d.shows command e f ∧ x = y ∧ NoResult x.unread)
      (fun x y => x = y ∧ Anything x.unread) := by
  cases hcommand : d.shows command with
  | false =>
    refine rel_post (alike_exchange htime hshows h₁ hcommand).weaken (fun e f x y h => ?_)
    obtain ⟨rfl, hxy⟩ := h
    exact ⟨.refl _ _ e, hxy⟩
  | true =>
    unfold exchange
    refine rel_bind (rel_write_answering command) (fun _ _ => ?_)
    refine rel_bind (Q := fun e f x y => SameMeaning d.shows command e f ∧ x = y ∧
      NoResult x.unread)
      (rel_of_silent (silent_collectUntilTerminator command)
        (silent_collectUntilTerminator command) (d.triple_collect text₁ command)
        (d.triple_collect text₂ command) ?_) (fun e f => ?_)
    · exact fun x y h => collect_answering htime hshows h₁ h₂ hcommand h
    · exact rel_pure_pre (fun hmeaning =>
        rel_exchanged hmeaning.veiled (fun x y hxy => ⟨hmeaning, hxy⟩))

/-! ## Inbound messages -/

/-- Only the announcements among the lines matter to the queue. -/
theorem scanCmti_congr {lines lines' : List String} (h : indices lines = indices lines')
    (pending : List Nat) : scanCmti lines pending = scanCmti lines' pending := by
  funext script
  rw [scanCmti_run, scanCmti_run, h]

theorem alike_scanCmti (lines : List String) (pending : List Nat) :
    Alike d text₁ text₂ (scanCmti lines pending) (scanCmti lines pending) := by
  induction lines generalizing pending with
  | nil => exact alike_pure pending
  | cons line lines ih =>
    unfold scanCmti
    cases parseCmtiIndex line with
    | none => exact ih pending
    | some index =>
      exact alike_bind (alike_emit rfl (fun _ _ => rfl) (fun _ _ => rfl)) (fun _ => ih _)

theorem veiled_eq {m m' : ParsedInbound} (h : m.sender = m'.sender) : m.veiled = m'.veiled := by
  rw [ParsedInbound.veiled, ParsedInbound.veiled, h]

theorem alike_publishInbound (events : Bool) (rowId : Nat) {m m' : ParsedInbound}
    (h : m.sender = m'.sender) :
    Alike d text₁ text₂ (publishInbound events rowId m) (publishInbound events rowId m') := by
  unfold publishInbound
  cases events with
  | false => exact alike_pure ()
  | true =>
    refine alike_emit ?_ (fun _ _ => rfl) (fun _ _ => rfl)
    rw [visible, visible, veiled_eq h]

theorem alike_createInboundMessage {m m' : ParsedInbound} (h : m.sender = m'.sender) :
    Alike d text₁ text₂ (createInboundMessage m) (createInboundMessage m') := by
  refine lockstep_perform (fun a b x y x' y' hxy hx hy => ?_)
  obtain ⟨hr, hconnection⟩ := ask_alike hxy hx hy
  exact ⟨by rw [visible, visible, veiled_eq h, hr], hr, hconnection⟩

theorem alike_auditDelete (index : Nat) (result : AtResult) :
    Alike d text₁ text₂ (auditDelete index result) (auditDelete index result) := by
  unfold auditDelete
  split
  · exact alike_pure ()
  · exact alike_audit _ _

/-- The rest of the world decides whose turn it is. -/
theorem ask_turn {text : String} {p p' : Connection σ} {a : Answer}
    (h : d.next text p a.choiceEvent = some p') : ∃ q, p.ask Answer.turn a.turn = some q := by
  unfold Answer.choiceEvent at h
  cases hturn : a.turn with
  | request r | closed =>
    rw [hturn] at h
    exact ⟨p', h⟩
  | poll =>
    rw [hturn] at h
    obtain ⟨q, hq, -⟩ := Option.bind_eq_some_iff.mp h
    refine ⟨q, ?_⟩
    unfold Connection.ask at hq ⊢
    cases hanswers : p.answers with
    | nil =>
      rw [hanswers] at hq
      cases hq
    | cons first answers =>
      rw [hanswers] at hq
      simp only at hq ⊢
      split at hq
      · next hfirst => rw [if_pos (congrArg Prod.fst hfirst), hq]
      · cases hq

section Inbound

variable (htime : d.InTime) (hshows : d.ShowsStored) (h₁ : Innocuous text₁)
include htime hshows h₁

theorem alike_storeInbound (events : Bool) (index : Nat) {m m' : ParsedInbound}
    (h : m.sender = m'.sender) (pending : List Nat) :
    Alike d text₁ text₂ (storeInbound events index m pending)
      (storeInbound events index m' pending) := by
  unfold storeInbound
  refine alike_bind (alike_createInboundMessage h) (fun reply => ?_)
  cases reply with
  | error text => exact alike_bind (alike_audit _ _) (fun _ => alike_pure pending)
  | ok rowId =>
    refine alike_bind (alike_publishInbound events rowId h) (fun _ => ?_)
    refine alike_bind (alike_exchange htime hshows h₁ (hshows.delete index)).weaken
      (fun delete => ?_)
    refine alike_bind (alike_scanCmti delete.lines pending) (fun pending => ?_)
    exact alike_bind (alike_auditDelete index delete.result) (fun _ => alike_pure pending)

variable (h₂ : Innocuous text₂)
include h₂

/-- Both runs read a message or neither does, and the messages have one sender. -/
theorem rel_readInbound (index attempts : Nat) (pending : List Nat) :
    RelTriple (d.monitor text₁) (d.monitor text₂) (visible d.shows)
      (fun x y => x = y ∧ NoResult x.unread) (readInbound index attempts pending)
      (readInbound index attempts pending)
      (fun r r' x y => (r.1.map ParsedInbound.sender = r'.1.map ParsedInbound.sender ∧ r.2 = r'.2) ∧
        x = y ∧ NoResult x.unread) (fun x y => x = y ∧ Anything x.unread) := by
  induction attempts generalizing pending with
  | zero => exact rel_pure (fun _ _ h => ⟨⟨rfl, rfl⟩, h⟩)
  | succ attempts ih =>
    unfold readInbound
    refine rel_bind (rel_exchange htime hshows h₁ h₂ (cmgrCommand index)) (fun e f => ?_)
    refine rel_pure_pre (fun hmeaning => ?_)
    rw [scanCmti_congr hmeaning.announced]
    refine rel_bind (alike_scanCmti f.lines pending) (fun scanned scanned' => ?_)
    refine rel_pure_pre (fun hscanned => ?_)
    subst hscanned
    have hsender := hmeaning.sender index rfl
    cases he : e.inbound with
    | none =>
      rw [he] at hsender
      rw [Option.map_eq_none_iff.mp hsender.symm]
      exact ih scanned
    | some m =>
      rw [he] at hsender
      obtain ⟨m', hm', hsame⟩ := Option.map_eq_some_iff.mp hsender.symm
      rw [hm']
      exact rel_pure (fun x y hxy => ⟨⟨by rw [Option.map_some, Option.map_some, hsame], rfl⟩, hxy⟩)

theorem alike_handleInboundInner (events : Bool) (index : Nat) (pending : List Nat) :
    Alike d text₁ text₂ (handleInboundInner events index pending)
      (handleInboundInner events index pending) := by
  unfold handleInboundInner
  refine rel_bind (rel_readInbound htime hshows h₁ h₂ index 3 pending) (fun r r' => ?_)
  refine rel_pure_pre (fun hsame => ?_)
  obtain ⟨message, pending⟩ := r
  obtain ⟨message', pending'⟩ := r'
  obtain ⟨hsender, rfl⟩ := hsame
  cases message with
  | none =>
    cases message' with
    | some m' => cases hsender
    | none => exact alike_bind (alike_audit _ _) (fun _ => alike_pure pending)
  | some m =>
    cases message' with
    | none => cases hsender
    | some m' =>
      exact alike_storeInbound htime hshows h₁ events index
        (Option.some.inj hsender) pending

theorem alike_drainPending (events : Bool) (pending : List Nat) :
    Alike d text₁ text₂ (drainPending events pending) (drainPending events pending) := by
  refine lockstep_iterate (fun pending => ?_) pending
  cases pending with
  | nil => exact lockstep_pure _
  | cons index pending =>
    refine alike_bind (alike_emit rfl (fun _ _ => rfl) (fun _ _ => rfl)) (fun _ => ?_)
    exact alike_bind (alike_handleInboundInner htime hshows h₁ h₂ events index pending)
      (fun _ => alike_pure _)

/-! ## The session -/

theorem alike_handleRaw (command : String) (s : SessionState) :
    Alike d text₁ text₂ (handleRaw command s) (handleRaw command s) := by
  unfold handleRaw
  refine rel_bind (rel_exchange htime hshows h₁ h₂ command) (fun e f => ?_)
  refine rel_pure_pre (fun hmeaning => ?_)
  rw [scanCmti_congr hmeaning.announced, hmeaning.result]
  refine alike_bind (alike_scanCmti f.lines s.pending) (fun pending => ?_)
  refine alike_bind (alike_emit rfl (fun _ _ => rfl) (fun _ _ => rfl)) (fun _ => ?_)
  refine alike_bind (alike_emit ?_ (fun _ _ => rfl) (fun _ _ => rfl)) (fun _ => alike_pure _)
  rw [visible, visible, hmeaning.veiled]

theorem alike_handleRequest (cfg : Config) (s : SessionState) (r : ModemRequest) :
    Alike d text₁ text₂ (handleRequest cfg s r) (handleRequest cfg s r) := by
  cases r with
  | raw command => exact alike_handleRaw htime hshows h₁ h₂ command s
  | sendSms toNumber body =>
    refine alike_bind (alike_handleSend htime hshows h₁ cfg s.status toNumber body)
      (fun result => ?_)
    exact alike_bind (alike_emit rfl (fun _ _ => rfl) (fun _ _ => rfl)) (fun _ => alike_pure s)

omit hshows h₁ h₂ in
theorem alike_select : Alike d text₁ text₂ select select := by
  refine lockstep_perform (fun a b x y x' y' hxy hx hy => ?_)
  obtain ⟨rfl, hresults⟩ := hxy
  obtain ⟨q, hq⟩ := ask_turn hx
  obtain ⟨q', hq'⟩ := ask_turn hy
  have hturn : a.turn = b.turn := (Connection.ask_unique hq hq').1
  show visible d.shows a.choiceEvent = visible d.shows b.choiceEvent ∧ a.choice = b.choice ∧
    x' = y' ∧ NoResult x'.unread
  have hx' : d.next text₁ x a.choiceEvent = some x' := hx
  have hy' : d.next text₂ x b.choiceEvent = some y' := hy
  unfold Answer.choiceEvent at hx' hy' ⊢
  unfold Answer.choice
  rw [← hturn] at hy' ⊢
  cases ha : a.turn with
  | request r | closed =>
    rw [ha] at hx' hy'
    exact ⟨rfl, rfl, (ask_alike ⟨rfl, hresults⟩ hx' hy').2⟩
  | poll =>
    rw [ha] at hx' hy'
    obtain ⟨r, hr, hxread⟩ := Option.bind_eq_some_iff.mp hx'
    obtain ⟨r', hr', hyread⟩ := Option.bind_eq_some_iff.mp hy'
    obtain ⟨hlost, rfl, hsettled⟩ := ask_alike (I := NoResult) ⟨rfl, hresults⟩ hr hr'
    have hsame : a.read = b.read ∧ x' = y' ∧ NoResult x'.unread := by
      by_cases haread : a.read = .ioError
      · have hbread : b.read = .ioError := by simpa [haread] using hlost
        rw [if_pos haread] at hxread
        rw [if_pos hbread] at hyread
        obtain rfl : r = x' := Option.some.inj hxread
        exact ⟨haread.trans hbread.symm, Option.some.inj hyread, hsettled⟩
      · have hbread : b.read ≠ .ioError := by simpa [haread] using hlost
        rw [if_neg haread] at hxread
        rw [if_neg hbread] at hyread
        obtain ⟨hread, hconnection⟩ := Device.read_unique hxread hyread
        exact ⟨hread, hconnection, Device.results_read htime hsettled hxread⟩
    obtain ⟨hread, hconnection⟩ := hsame
    exact ⟨by rw [hread], by rw [hread], hconnection⟩
/-- What a round of the session loop leaves: it goes on with nothing unread that
is a result, or it ends. -/
abbrev AfterTurn : SessionState ⊕ SessionEnd → SessionState ⊕ SessionEnd → Connection σ →
    Connection σ → Prop :=
  rounded (fun s s' x y => s = s' ∧ x = y ∧ NoResult x.unread)
    (fun r r' x y => r = r' ∧ x = y ∧ Anything x.unread)

theorem rel_serveTurn (cfg : Config) (s : SessionState) :
    RelTriple (d.monitor text₁) (d.monitor text₂) (visible d.shows)
      (fun x y => x = y ∧ NoResult x.unread) (serveTurn cfg s) (serveTurn cfg s) AfterTurn
      (fun x y => x = y ∧ Anything x.unread) := by
  unfold serveTurn
  refine rel_bind (alike_select htime) (fun choice choice' => rel_pure_pre (fun hchoice => ?_))
  subst hchoice
  cases choice with
  | closed => exact rel_pure (fun _ _ h => ⟨rfl, h.1, trivial⟩)
  | lost => exact rel_pure (fun _ _ h => ⟨rfl, h.1, trivial⟩)
  | line polled =>
    cases polled with
    | none => exact rel_pure (fun _ _ h => ⟨rfl, h⟩)
    | some line =>
      refine rel_bind (alike_bind (alike_scanCmti [line] s.pending) (fun pending => alike_pure _))
        (fun s s' => rel_pure (fun _ _ h => ?_))
      exact h
  | request r =>
    exact rel_attempt_bind (alike_handleRequest htime hshows h₁ h₂ cfg s r)
      (fun s s' => rel_pure (fun _ _ h => h)) (rel_pure (fun _ _ h => ⟨rfl, h⟩))

theorem rel_sessionStep (cfg : Config) (events : Bool) (s : SessionState) :
    RelTriple (d.monitor text₁) (d.monitor text₂) (visible d.shows)
      (fun x y => x = y ∧ NoResult x.unread) (sessionStep cfg events s) (sessionStep cfg events s)
      AfterTurn (fun x y => x = y ∧ Anything x.unread) := by
  unfold sessionStep
  refine rel_attempt_bind (alike_drainPending htime hshows h₁ h₂ events s.pending)
    (fun u u' => rel_pure_pre (fun _ => ?_)) (rel_pure (fun _ _ h => ⟨rfl, h⟩))
  refine rel_attempt_bind (alike_refreshIfDue htime hshows h₁ { s with pending := [] })
    (fun s s' => rel_pure_pre (fun hs => ?_)) (rel_pure (fun _ _ h => ⟨rfl, h⟩))
  subst hs
  exact rel_serveTurn htime hshows h₁ h₂ cfg s

theorem rel_runSessionInner (cfg : Config) (events : Bool) (status : ModemStatusSnapshot) :
    RelTriple (d.monitor text₁) (d.monitor text₂) (visible d.shows)
      (fun x y => x = y ∧ NoResult x.unread) (runSessionInner cfg events status)
      (runSessionInner cfg events status) (fun r r' x y => r = r' ∧ x = y ∧ Anything x.unread)
      (fun x y => x = y ∧ Anything x.unread) := by
  unfold runSessionInner
  refine rel_bind (Q := fun r r' x y => r = r' ∧ x = y ∧ Anything x.unread) ?_ (fun r r' => ?_)
  · refine rel_pre (rel_iterate
      (I := fun s s' x y => s = s' ∧ x = y ∧ NoResult x.unread) (fun s s' => ?_) _ _)
      (fun x y hxy => ⟨rfl, hxy⟩)
    refine rel_pure_pre (fun hs => ?_)
    subst hs
    exact rel_sessionStep htime hshows h₁ h₂ cfg events s
  · refine rel_pure_pre (fun hr => ?_)
    subst hr
    exact lockstep_bind (alike_emit rfl (fun _ _ => rfl) (fun _ _ => rfl)) (fun _ => alike_pure r)

end Inbound

end Sessions

/-- Two runs of a session that differ in the text of the stored message show the
same, if neither text has a line that reads as a result code or a notification. -/
theorem text_does_not_steer {d : Device σ} (htime : d.InTime) (hshows : d.ShowsStored)
    {text₁ text₂ : String} (h₁ : Innocuous text₁) (h₂ : Innocuous text₂) (cfg : Config)
    (events : Bool) (status : ModemStatusSnapshot) {start end₁ end₂ : Connection σ}
    (hstart : NoResult start.unread) {script₁ script₂ : List Answer}
    (hrun₁ : (d.monitor text₁).Path start (runSessionInner cfg events status script₁).trace end₁)
    (hrun₂ : (d.monitor text₂).Path start (runSessionInner cfg events status script₂).trace end₂) :
    SameSeen (visible d.shows) (runSessionInner cfg events status script₁)
      (runSessionInner cfg events status script₂) :=
  (rel_runSessionInner htime hshows h₁ h₂ cfg events status).sameSeen
    (fun _ _ _ _ h => h.1) ⟨rfl, hstart⟩ hrun₁ hrun₂

/-! ## A modem that announces a message -/

theorem exists_path {d : Device σ} {text : String} {t : List Event} {p : Connection σ}
    (h : (t.foldlM (d.next text) p).isSome) : ∃ p', (d.monitor text).Path p t p' := by
  obtain ⟨p', hp'⟩ := Option.isSome_iff_exists.mp h
  exact ⟨p', (d.monitor text).path_of_foldlM (fun _ _ _ hnext => hnext) hp'⟩

def asksForMessage (command : String) : Bool :=
  (stripPrefix "AT+CMGR=".toList command.toList).isSome

def storedAnswer : List Item := [.line (cmgrHeader "+15551234567"), .stored, .line "OK"]

/-- It announces one message, in its first pause, and answers everything else
with OK. -/
def announcer : Device Bool where
  react s out :=
    (s, match out with
      | .command command => if asksForMessage command then storedAnswer else [.line "OK"]
      | .header _ _ => []
      | .body _ _ | .abort => [.line "OK"])
  idle s := (true, if s then [] else ["+CMTI: \"SM\",3"])
  prompt _ _ := some 0
  refused _ := false
  shows := asksForMessage

theorem announcer_inTime : announcer.InTime where
  command s text := by
    have hstored : storedAnswer.countP Item.isResult = 1 := by decide +kernel
    have hok : [Item.line "OK"].countP Item.isResult = 1 := by decide +kernel
    show (if asksForMessage text then storedAnswer else [.line "OK"]).countP Item.isResult = 1
    split
    · exact hstored
    · exact hok
  header s toNumber encoding := rfl
  body s part encoding := by
    show [Item.line "OK"].countP Item.isResult = 1
    decide +kernel
  abort s := by
    show [Item.line "OK"].countP Item.isResult ≤ 1
    decide +kernel
  idle s := by cases s <;> decide +kernel

theorem storedAnswer_split {pre post : List Item} (h : storedAnswer = pre ++ .stored :: post) :
    pre = [.line (cmgrHeader "+15551234567")] ∧ post = [.line "OK"] := by
  unfold storedAnswer at h
  cases pre with
  | nil => simp at h
  | cons item pre =>
    cases pre with
    | nil =>
      simp only [List.cons_append, List.nil_append, List.cons.injEq, true_and] at h
      exact ⟨by rw [h.1], h.2.symm⟩
    | cons other pre => cases pre <;> simp at h

theorem announcer_showsStored : announcer.ShowsStored where
  asked s out hstored := by
    cases out with
    | command command =>
      refine ⟨command, rfl, ?_⟩
      show asksForMessage command = true
      cases hasks : asksForMessage command with
      | true => rfl
      | false =>
        have hitems : (announcer.react s (.command command)).2 = [.line "OK"] := by
          simp [announcer, hasks]
        rw [hitems] at hstored
        cases hstored with
        | tail _ h => cases h
    | header toNumber encoding => cases hstored
    | body part encoding | abort =>
      cases hstored with
      | tail _ h => cases h
  own := by decide +kernel
  delete index := by
    show (stripPrefix "AT+CMGR=".toList (cmgdCommand index).toList).isSome = false
    rw [cmgdCommand, String.toList_append]
    rfl
  ended s command pre post h := by
    cases hasks : asksForMessage command with
    | true =>
      have hitems : (announcer.react s (.command command)).2 = storedAnswer := by
        simp [announcer, hasks]
      obtain ⟨-, rfl⟩ := storedAnswer_split (hitems.symm.trans h)
      exact ⟨_, List.mem_cons_self, by decide +kernel⟩
    | false =>
      have hitems : (announcer.react s (.command command)).2 = [.line "OK"] := by
        simp [announcer, hasks]
      have h := hitems.symm.trans h
      cases pre <;> simp at h
  headed s index pre post h := by
    have hasks : asksForMessage (cmgrCommand index) = true := by
      rw [asksForMessage, cmgrCommand, String.toList_append]
      rfl
    have hitems : (announcer.react s (.command (cmgrCommand index))).2 = storedAnswer := by
      simp [announcer, hasks]
    obtain ⟨rfl, -⟩ := storedAnswer_split (hitems.symm.trans h)
    exact ⟨_, List.mem_cons_self, isLine_header (by decide +kernel), isCmgrHeader_header _⟩

/-- The session hears of the message in its second turn and fetches it. -/
def fetches (text : String) : List Answer :=
  answered ["OK"] ++ answered ["OK"] ++ answered ["OK"] ++ answered ["OK"] ++
    [.quiet, .quiet, .line "+CMTI: \"SM\",3"] ++
    answered [cmgrHeader "+15551234567", text, "OK"] ++ [.quiet] ++ answered ["OK"]

def leaves : List Answer := [.quiet, { turn := .closed }]

def announced : Connection Bool := ⟨false, [], List.replicate 11 .quiet ++ [{ turn := .closed }]⟩

theorem text_does_not_steer_hello :
    SameSeen (visible announcer.shows)
      (runSessionInner plainConfig true initialSnapshot (fetches "hello" ++ leaves))
      (runSessionInner plainConfig true initialSnapshot (fetches "good bye" ++ leaves)) := by
  have hrun₁ : (List.foldlM (announcer.next "hello") announced (runSessionInner plainConfig true
      initialSnapshot (fetches "hello" ++ leaves)).trace).isSome := by decide +kernel
  have hrun₂ : (List.foldlM (announcer.next "good bye") announced (runSessionInner plainConfig true
      initialSnapshot (fetches "good bye" ++ leaves)).trace).isSome := by decide +kernel
  have h₁ : Innocuous "hello" := by decide +kernel
  have h₂ : Innocuous "good bye" := by decide +kernel
  have hstart : NoResult announced.unread := rfl
  generalize fetches "hello" ++ leaves = script₁ at hrun₁ ⊢
  generalize fetches "good bye" ++ leaves = script₂ at hrun₂ ⊢
  obtain ⟨end₁, hrun₁⟩ := exists_path hrun₁
  obtain ⟨end₂, hrun₂⟩ := exists_path hrun₂
  exact text_does_not_steer announcer_inTime announcer_showsStored h₁ h₂ plainConfig true
    initialSnapshot hstart hrun₁ hrun₂

/-- A text that reads as a notification puts an index into the queue. -/
theorem text_announces : ¬ ∀ (σ : Type) (d : Device σ), d.InTime → d.ShowsStored →
    ∀ (text₁ text₂ : String) (cfg : Config) (events : Bool) (status : ModemStatusSnapshot)
      (start end₁ end₂ : Connection σ), NoResult start.unread → ∀ script₁ script₂ : List Answer,
      (d.monitor text₁).Path start (runSessionInner cfg events status script₁).trace end₁ →
      (d.monitor text₂).Path start (runSessionInner cfg events status script₂).trace end₂ →
      SameSeen (visible d.shows) (runSessionInner cfg events status script₁)
        (runSessionInner cfg events status script₂) := by
  intro h
  have hrun₁ : (List.foldlM (announcer.next "+CMTI: \"SM\",7") announced
      (runSessionInner plainConfig true initialSnapshot
        (fetches "+CMTI: \"SM\",7")).trace).isSome := by decide +kernel
  have hrun₂ : (List.foldlM (announcer.next "hello") announced
      (runSessionInner plainConfig true initialSnapshot (fetches "hello")).trace).isSome := by
    decide +kernel
  have hnot : ¬ SameSeen (visible announcer.shows)
      (runSessionInner plainConfig true initialSnapshot (fetches "+CMTI: \"SM\",7"))
      (runSessionInner plainConfig true initialSnapshot (fetches "hello")) := by
    unfold SameSeen
    decide +kernel
  have hstart : NoResult announced.unread := rfl
  generalize fetches "+CMTI: \"SM\",7" = script₁ at hrun₁ hnot
  generalize fetches "hello" = script₂ at hrun₂ hnot
  obtain ⟨end₁, hrun₁⟩ := exists_path hrun₁
  obtain ⟨end₂, hrun₂⟩ := exists_path hrun₂
  exact hnot (h Bool announcer announcer_inTime announcer_showsStored _ _ plainConfig true
    initialSnapshot announced end₁ end₂ hstart script₁ script₂ hrun₁ hrun₂)

end Modem
end GreenRelay
