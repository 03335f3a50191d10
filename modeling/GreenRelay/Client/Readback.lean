/-
A message that was sent through the client, read back through the client.

Between the two calls the tasks of the service run in any order, and other
requests come in.  The row of a message keeps the number, the text, the part
count and the time it was created with; the status is `queued` until one is
written that `send_sms` returned for this message (`Kept`).  The row is read
through its texts: the name of the status and the times.
-/
import GreenRelay.Client.Agreement
import GreenRelay.Outbound.Responses

namespace GreenRelay
namespace Client

open Api Events Isoformat
open Outbound (Entry State service Replied Stepped stepped_of_step setOutboundStatus)
open Storage (Chrono OutboundMessage OutboundRow asDbStr outboundFromRow parseTs_printed
  fromDbStr_asDbStr)
open Rfc3339 (Instant)

/-! ## What a run keeps of a row -/

/-- The message under an id after a while, given what has been returned by then. -/
structure KeepsMessage (history : List Entry) (m m' : Outbound.OutboundMessage) : Prop where
  id : m'.id = m.id
  toNumber : m'.toNumber = m.toNumber
  body : m'.body = m.body
  partCount : m'.partCount = m.partCount
  createdAt : m'.createdAt = m.createdAt
  status : m'.status = m.status ∨ .returned m.id m'.status ∈ history

structure Kept (s t : State) : Prop where
  history : ∀ e ∈ s.history, e ∈ t.history
  rows : ∀ id m, s.table.find id = some m →
    ∃ m', t.table.find id = some m' ∧ KeepsMessage t.history m m'

theorem KeepsMessage.refl (history : List Entry) (m : Outbound.OutboundMessage) :
    KeepsMessage history m m := ⟨rfl, rfl, rfl, rfl, rfl, .inl rfl⟩

theorem Kept.refl (s : State) : Kept s s :=
  ⟨fun _ he => he, fun _ m hm => ⟨m, hm, .refl _ m⟩⟩

theorem Kept.trans {s t u : State} (h₁ : Kept s t) (h₂ : Kept t u) : Kept s u where
  history e he := h₂.history e (h₁.history e he)
  rows id m hm := by
    obtain ⟨m', hm', hkeep⟩ := h₁.rows id m hm
    obtain ⟨m'', hm'', hkeep'⟩ := h₂.rows id m' hm'
    refine ⟨m'', hm'', hkeep'.id.trans hkeep.id, hkeep'.toNumber.trans hkeep.toNumber,
      hkeep'.body.trans hkeep.body, hkeep'.partCount.trans hkeep.partCount,
      hkeep'.createdAt.trans hkeep.createdAt, ?_⟩
    rcases hkeep'.status with hsame | hreturned
    · rcases hkeep.status with hfirst | hreturned
      · exact .inl (hsame.trans hfirst)
      · exact .inr (hsame ▸ h₂.history _ hreturned)
    · exact .inr (hkeep.id ▸ hreturned)

theorem Kept.of_table {s t : State} (htable : t.table = s.table)
    (hhistory : ∀ e ∈ s.history, e ∈ t.history) : Kept s t :=
  ⟨hhistory, fun _ m hm => ⟨m, htable ▸ hm, .refl _ m⟩⟩

/-- A status is written only from a result that was returned for the message. -/
theorem kept_step {s t : State} {a : Outbound.Act} (h : Replied s) (hstep : Stepped s a t) :
    Kept s t := by
  cases hstep with
  | prepareSend createdAt toNumber body partCount sync =>
    exact ⟨fun _ he => he, fun id m hm => ⟨m, Table.find_insert_of_find hm, .refl _ m⟩⟩
  | @recordStatus c r w ok hp hw =>
    refine ⟨fun _ he => he, fun id m hm => ?_⟩
    cases ok with
    | false => exact ⟨m, hm, .refl _ m⟩
    | true =>
      refine ⟨if id = c.id then w.apply s.now m else m, ?_, ?_⟩
      · show (setOutboundStatus s.table s.now c.id w).find id = _
        rw [setOutboundStatus, Table.find_modify, hm, Option.map_some]
      · by_cases hid : id = c.id
        · rw [if_pos hid]
          have hreturned := h.carried c _ r.status hp rfl
          have hstatus : w.status = r.status := (Outbound.statusWrite_outcome hw).1
          have hkey : m.id = c.id := (Table.find_key hm).trans hid
          refine ⟨rfl, rfl, rfl, rfl, rfl, .inr ?_⟩
          show Entry.returned m.id w.status ∈ s.history
          rw [hstatus, hkey]
          exact hreturned
        · rw [if_neg hid]
          exact .refl _ m
  | submit | refused | wake =>
    exact .of_table rfl (fun _ he => List.mem_append_left _ he)
  | clock | syncSend | queueSend | manager | answered | deferDispatch | deferReaper | recordMetric
  | publishDispatch | publishReaper | replyOutcome | respond | expire | forget | dropWaiting | tick
  | queryQueued | nextStuck | abort => exact .of_table rfl (fun _ he => he)

theorem kept_run : service.Along Machine.anything Kept :=
  Replied.invariant.along .refl (fun _ _ _ => .trans)
    (fun _ _ _ h _ ht => kept_step h (stepped_of_step ht))

/-! ## Reading a row -/

/-- The row of a message in the texts of its columns, with the times of a clock. -/
def rowOf (chrono : Chrono) (timeOf : Nat → Instant) (m : Outbound.OutboundMessage) :
    OutboundRow :=
  ⟨m.id, m.toNumber, m.body, asDbStr m.status, m.partCount, m.msgReference, m.errorCode,
    chrono.toRfc3339 (timeOf m.createdAt), chrono.toRfc3339 (timeOf m.updatedAt)⟩

/-- `SELECT … FROM outbound_messages WHERE id = ?`. -/
def selectOutbound (chrono : Chrono) (timeOf : Nat → Instant) (s : State) (id : Nat) :
    Option OutboundRow :=
  (s.table.find id).map (rowOf chrono timeOf)

theorem outboundFromRow_rowOf {chrono : Chrono} {timeOf : Nat → Instant}
    (hreads : ∀ n, chrono.Reads (timeOf n)) (m : Outbound.OutboundMessage) :
    outboundFromRow chrono (rowOf chrono timeOf m)
      = .ok ⟨m.id, m.toNumber, m.body, m.status, UInt8.ofNat m.partCount, m.msgReference,
          m.errorCode, timeOf m.createdAt, timeOf m.updatedAt⟩ := by
  rw [outboundFromRow, rowOf, fromDbStr_asDbStr, parseTs_printed (hreads _),
    parseTs_printed (hreads _)]
  rfl

theorem outboundStatusHandler_rowOf {chrono : Chrono} {timeOf : Nat → Instant}
    (hreads : ∀ n, chrono.Reads (timeOf n)) (retryAfterSecs : Nat) (m : Outbound.OutboundMessage) :
    outboundStatusHandler chrono retryAfterSecs (.ok (some (rowOf chrono timeOf m)))
      = .value ⟨m.id, m.toNumber, m.body, m.status, UInt8.ofNat m.partCount, m.msgReference,
          m.errorCode, timeOf m.createdAt, timeOf m.updatedAt⟩ := by
  have hfetched : (Except.ok (some (rowOf chrono timeOf m)) >>= getOutboundMessage chrono)
      = .ok (some ⟨m.id, m.toNumber, m.body, m.status, UInt8.ofNat m.partCount, m.msgReference,
          m.errorCode, timeOf m.createdAt, timeOf m.updatedAt⟩) := by
    show (outboundFromRow chrono (rowOf chrono timeOf m)).map some = _
    rw [outboundFromRow_rowOf hreads]
    rfl
  rw [outboundStatusHandler, hfetched]

/-! ## The result -/

/-- What `messages.get` returns for a message, where its times can be read. -/
structure ReadsBack (timeOf : Nat → Instant) (sent : Outbound.SendResponse)
    (sentTo text : String) (created updated : Nat) (history : List Entry)
    (m : PyOutboundMessage) : Prop where
  id : m.id = .int sent.id
  toNumber : m.toNumber = .str sentTo
  body : m.body = .str text
  partCount : m.partCount = .int sent.parts
  createdAt : m.createdAt = some (ofInstant (timeOf created))
  updatedAt : m.updatedAt = some (ofInstant (timeOf updated))
  status : m.status = .queued ∨ .returned sent.id m.status ∈ history

theorem sendHandler_sendBody (m : Api.Moment) (toNumber body : String) (s : State) :
    sendHandler m (some (sendBody toNumber body)) s
      = ((queueSend m ⟨some toNumber, some body⟩ s).1,
        ofSendAnswer id (queueSend m ⟨some toNumber, some body⟩ s).2.intoResponse) := rfl

/-- The row of a request that was accepted. -/
theorem sendHandler_accepted {m : Api.Moment} {toNumber body : String} {s s' : State}
    {resp : Outbound.SendResponse}
    (h : sendHandler m (some (sendBody toNumber body)) s = (s', .value resp)) :
    resp.parts ≤ 10 ∧ ∃ createdAt, m.insert = .ok createdAt ∧
      s'.table.find resp.id = some ⟨resp.id, toNumber, body, .queued, resp.parts, none, none,
        createdAt, createdAt⟩ ∧
      service.Run Machine.anything s s' := by
  rw [sendHandler_sendBody] at h
  obtain ⟨hstate, hvalue⟩ := Prod.mk.inj h
  rcases prepareSend_end m ⟨some toNumber, some body⟩ false s with
    ⟨decision, hprepare, hrefused⟩ |
    ⟨createdAt, p, segments, hinsert, hid, hparts, hadmitted, hfaultless, hprepare⟩
  · rw [queueSend, hprepare] at hvalue
    exfalso
    cases decision with
    | accepted resp => exact hrefused.refusal resp rfl
    | _ => cases hvalue
  · rw [queueSend, hprepare] at hstate hvalue
    have hresp : resp = ⟨p.id, .queued, p.parts⟩ := by
      cases hvalue
      rfl
    have haccepted := hadmitted.accepted (s := s) false hparts hid hinsert hfaultless
    have hrequest := haccepted.request
    rw [SendRequest.mk.injEq, Option.some.injEq, Option.some.injEq] at hrequest
    obtain ⟨hto, hbody⟩ := hrequest
    have hexec : service.exec s [.prepareSend createdAt p.toNumber p.body p.parts false,
        .spawnDispatch p.id] = some (finish false p
          (s.prepareSend createdAt p.toNumber p.body p.parts false)) :=
      finish_exec false hid
    subst hstate hresp
    refine ⟨haccepted.parts.2, createdAt, hinsert, ?_, ?_⟩
    · rw [hto, hbody]
      show (s.table.insert _ _).find p.id = _
      rw [hid]
      exact Table.find_insert_next _ _ _
    · exact Machine.run_of_exec (Machine.meets_of_forall (fun _ _ _ => trivial)) hexec

/-- What is read back of a row. -/
theorem messageTold_rowOf {rt : Runtime} {timeOf : Nat → Instant} {history : List Entry}
    {m m' : Outbound.OutboundMessage} {sent : Outbound.SendResponse}
    (hkeeps : KeepsMessage history m m') (hid : m.id = sent.id) (hsent : m.partCount = sent.parts)
    (hqueued : m.status = .queued) (hparts : sent.parts < 256)
    (hcreated : Readable rt.lenient (timeOf m'.createdAt))
    (hupdated : Readable rt.lenient (timeOf m'.updatedAt)) :
    ∃ message, messageTold rt ⟨m'.id, m'.toNumber, m'.body, m'.status, UInt8.ofNat m'.partCount,
        m'.msgReference, m'.errorCode, timeOf m'.createdAt, timeOf m'.updatedAt⟩ = .ok message ∧
      ReadsBack timeOf sent m.toNumber m.body m.createdAt m'.updatedAt history message := by
  refine ⟨_, by rw [messageTold, timeTold, if_pos hcreated, timeTold, if_pos hupdated]; rfl, ?_⟩
  have hpart : (UInt8.ofNat m'.partCount).toNat = sent.parts := by
    rw [UInt8.toNat_ofNat', hkeeps.partCount, hsent]
    omega
  refine ⟨?_, ?_, ?_, ?_, ?_, rfl, ?_⟩
  · show Json.int _ = Json.int _
    rw [hkeeps.id, hid]
  · show Json.str _ = Json.str _
    rw [hkeeps.toNumber]
  · show Json.str _ = Json.str _
    rw [hkeeps.body]
  · show Json.int _ = Json.int _
    rw [hpart]
  · show some _ = some _
    rw [hkeeps.createdAt]
  · rcases hkeeps.status with hsame | hreturned
    · exact .inl (hsame.trans hqueued)
    · exact .inr (hid ▸ hreturned)

/-- A message that `messages.send` was accepted for is read back by `messages.get`
after whatever the service has done since: with its number, its text and its part
count, and `queued` unless this status was returned for it.  It cannot be read
where the Python at hand cannot read one of its times.  The acceptance is the insert
and the spawn with no step of another task between them, and the `SELECT` of the read
succeeds. -/
theorem sent_message_reads_back {rt : Runtime} {compact : Json → List Char} {chrono : Chrono}
    {timeOf : Nat → Instant} (hreads : ∀ n, chrono.Reads (timeOf n)) {s s' t : State}
    (hs : service.Reach Machine.anything s) {m : Api.Moment} {toNumber body : String}
    {resp : Outbound.SendResponse}
    (hsend : sendHandler m (some (sendBody toNumber body)) s = (s', .value resp))
    (hrun : service.Run Machine.anything s' t) (retryAfterSecs : Nat) {o : Outcome OutboundMessage}
    (ho : o = outboundStatusHandler chrono retryAfterSecs
      (.ok (selectOutbound chrono timeOf t resp.id)))
    (hcarried : o.Carried rt compact messageSuccess) :
    ∃ createdAt updatedAt, m.insert = .ok createdAt ∧
      (Readable rt.lenient (timeOf createdAt) ∧ Readable rt.lenient (timeOf updatedAt) →
        ∃ message, messagesGet rt (o.http compact messageSuccess) = .ok message ∧
          ReadsBack timeOf resp toNumber body createdAt updatedAt t.history message) ∧
      (¬ (Readable rt.lenient (timeOf createdAt) ∧ Readable rt.lenient (timeOf updatedAt)) →
        messagesGet rt (o.http compact messageSuccess) = .error (.python .valueError)) := by
  obtain ⟨hparts, createdAt, hinsert, hrow, hfirst⟩ := sendHandler_accepted hsend
  obtain ⟨m', hm', hkeeps⟩ := (kept_run s' t (hs.trans hfirst) hrun).rows resp.id _ hrow
  have hvalue : o = .value ⟨m'.id, m'.toNumber, m'.body, m'.status, UInt8.ofNat m'.partCount,
      m'.msgReference, m'.errorCode, timeOf m'.createdAt, timeOf m'.updatedAt⟩ := by
    rw [ho, selectOutbound, hm', Option.map_some, outboundStatusHandler_rowOf hreads]
  have hproper : o.Proper [] messageSuccess := by
    rw [hvalue]
    exact .inl (by decide : 200 < 400)
  have htold : messagesGet rt (o.http compact messageSuccess) = o.told (messageTold rt) :=
    method_http hproper hcarried (message_fromDict rt)
  have hcreatedAt : m'.createdAt = createdAt := hkeeps.createdAt
  rw [htold, hvalue]
  refine ⟨createdAt, m'.updatedAt, hinsert, ?_, ?_⟩
  · rintro ⟨hcreated, hupdated⟩
    exact messageTold_rowOf hkeeps rfl rfl rfl (by omega)
      (hcreatedAt ▸ hcreated) hupdated
  · intro hunreadable
    show messageTold rt _ = _
    rw [messageTold, timeTold, hcreatedAt]
    by_cases hcreated : Readable rt.lenient (timeOf createdAt)
    · have hupdated : ¬ Readable rt.lenient (timeOf m'.updatedAt) :=
        fun h => hunreadable ⟨hcreated, h⟩
      rw [if_pos hcreated, timeTold, if_neg hupdated]
      rfl
    · rw [if_neg hcreated]
      rfl

def sampleMoment : Api.Moment :=
  ⟨⟨true, .ready, true, true, some 80, some "Operator"⟩, 5, true, .ok 0⟩

/-- The message of `delivered`. -/
def sampleMessage : OutboundMessage :=
  ⟨1, "+15551230000", "hello", .sent, 1, some "42", none, Storage.sampleSecond,
    Storage.sampleSecond⟩

/-- It reads this message, whatever the text. -/
def sampleRuntime : Runtime :=
  ⟨fun _ => .ok (OutboundMessage.json sampleMessage), fun _ => "", true⟩

theorem sent_message_reads_back_delivered :
    ∃ createdAt updatedAt message,
      messagesGet sampleRuntime ⟨200, none, []⟩ = .ok message ∧
      ReadsBack (fun _ => Storage.sampleSecond) ⟨1, .queued, 1⟩ "+15551230000" "hello" createdAt
        updatedAt (Outbound.stateAfter Outbound.delivered).history message := by
  have hsend : sendHandler sampleMoment (some (sendBody "+15551230000" "hello")) Outbound.fresh
      = (Outbound.stateAfter (Outbound.delivered.take 2), .value ⟨1, .queued, 1⟩) := rfl
  have hexec : service.exec (Outbound.stateAfter (Outbound.delivered.take 2))
      (Outbound.delivered.drop 2) = some (Outbound.stateAfter Outbound.delivered) := rfl
  have hrow : (Outbound.stateAfter Outbound.delivered).table.find 1
      = some ⟨1, "+15551230000", "hello", .sent, 1, some "42", none, 0, 0⟩ := rfl
  have hfetched : Outcome.value sampleMessage = outboundStatusHandler Storage.sampleChrono 5
      (.ok (selectOutbound Storage.sampleChrono (fun _ => Storage.sampleSecond)
        (Outbound.stateAfter Outbound.delivered) 1)) := by
    rw [selectOutbound, hrow, Option.map_some,
      outboundStatusHandler_rowOf (fun _ => Storage.sampleChrono_reads.1)]
    rfl
  have hcarried : (Outcome.value sampleMessage).Carried sampleRuntime (fun _ => [])
      messageSuccess := rfl
  obtain ⟨createdAt, updatedAt, -, hread, -⟩ :=
    sent_message_reads_back (fun _ => Storage.sampleChrono_reads.1)
      ⟨Outbound.fresh, Outbound.starting_fresh, .refl _⟩ hsend
      (Machine.run_of_exec (Machine.meets_of_forall (fun _ _ _ => trivial)) hexec) 5 hfetched
      hcarried
  obtain ⟨message, hmessage, hback⟩ := hread ⟨by decide, by decide⟩
  exact ⟨createdAt, updatedAt, message, hmessage, hback⟩

end Client
end GreenRelay
