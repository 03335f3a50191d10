/-
The listing of received messages, page by page.

`GET /api/v1/messages/inbound` takes a limit and an offset, both optional and
both brought into range, and answers with a window of the table, newest first.
Messages are received between the requests of a client that reads on, so the
windows are of different tables.

The client is the one the endpoint is for: it asks from `0`, from the limit, from
twice the limit, asks again for what failed, and is done with a page that is not
full.  The limit it steps by is the one the service resolves: a client that steps
by more than `MAX_PAGE_LIMIT` skips messages.
-/
import GreenRelay.Api.Gateway
import GreenRelay.Lib.Paging
import GreenRelay.Storage.Timestamps

namespace GreenRelay
namespace Api

open Storage

/-! ## The endpoint -/

def defaultPageLimit : Int := 100

def maxPageLimit : Int := 1000

structure Pagination where
  limit : Option Int
  offset : Option Int
  deriving DecidableEq, Repr

def clamp (x lo hi : Int) : Int := if x < lo then lo else if hi < x then hi else x

def Pagination.resolve (p : Pagination) : Int × Int :=
  (clamp (p.limit.getD defaultPageLimit) 1 maxPageLimit, max (p.offset.getD 0) 0)

inductive InboundAnswer where
  | ok (messages : List InboundMessage)
  | error (answer : Gateway.GateAnswer)
  deriving DecidableEq, Repr

def dbErrorResponse (err : DbError) (retryAfterSecs : Nat) : Gateway.GateAnswer :=
  if isNotReady err then
    Gateway.jsonWithRetryAfter 503 retryAfterSecs ⟨"the service is not ready", []⟩
  else ⟨500, none, none, ⟨"internal server error", []⟩⟩

/-- The handler, given how its `SELECT` ends. -/
def inboundHandler (chrono : Chrono) (retryAfterSecs : Nat)
    (fetched : Except DbError (List InboundRow)) : InboundAnswer :=
  match fetched >>= listInboundMessages chrono with
  | .ok messages => .ok messages
  | .error err => .error (dbErrorResponse err retryAfterSecs)

/-- The `SELECT` fails, or returns an answer to the query with the resolved window. -/
def Fetched (page : Pagination) (rows : List InboundRow) :
    Except DbError (List InboundRow) → Prop
  | .ok answer => (listInboundQuery page.resolve.1 page.resolve.2).Answers rows answer
  | .error _ => True

/-! ## A client that reads on -/

structure Listing where
  stored : InboundRows × List InboundMessage
  pages : List (List InboundMessage)

/-- The limit that the client steps by. -/
def pageSize (requested : Option Int) : Nat := (Pagination.resolve ⟨requested, none⟩).1.toNat

def nextRequest (requested : Option Int) (pages : List (List InboundMessage)) : Pagination :=
  ⟨requested, some (pages.length * pageSize requested : Nat)⟩

def Done (requested : Option Int) (pages : List (List InboundMessage)) : Bool :=
  pages.any (fun page => page.length ≠ pageSize requested)

/-- What the client keeps of an answer. -/
def readPage (pages : List (List InboundMessage)) : InboundAnswer → List (List InboundMessage)
  | .ok messages => pages ++ [messages]
  | .error _ => pages

/-- Messages are received and pages are read, in any order. -/
inductive Listed (chrono : Chrono) (requested : Option Int) : Listing → Listing → Prop where
  | refl (s : Listing) : Listed chrono requested s s
  | received {s t : Listing} (c : InboundCall) : Listed chrono requested s t →
      Listed chrono requested s ⟨receive chrono t.stored c, t.pages⟩
  | requested {s t : Listing} {fetched : Except DbError (List InboundRow)}
      (retryAfterSecs : Nat) : Listed chrono requested s t → Done requested t.pages = false →
      Fetched (nextRequest requested t.pages) t.stored.1.rows fetched →
      Listed chrono requested s
        ⟨t.stored, readPage t.pages (inboundHandler chrono retryAfterSecs fetched)⟩

theorem clamp_mem (x lo hi : Int) (h : lo ≤ hi) : lo ≤ clamp x lo hi ∧ clamp x lo hi ≤ hi := by
  unfold clamp
  split
  · omega
  · split <;> omega

theorem resolve_range (p : Pagination) :
    1 ≤ p.resolve.1 ∧ p.resolve.1 ≤ maxPageLimit ∧ 0 ≤ p.resolve.2 := by
  have h := clamp_mem (p.limit.getD defaultPageLimit) 1 maxPageLimit (by decide)
  exact ⟨h.1, h.2, Int.le_max_right _ _⟩

theorem nextRequest_resolve (requested : Option Int) (pages : List (List InboundMessage)) :
    (nextRequest requested pages).resolve.1.toNat = pageSize requested ∧
    (nextRequest requested pages).resolve.2.toNat = pages.length * pageSize requested := by
  refine ⟨rfl, ?_⟩
  show (max ((pages.length * pageSize requested : Nat) : Int) 0).toNat = _
  omega

theorem done_false_iff (requested : Option Int) (pages : List (List InboundMessage)) :
    Done requested pages = false ↔ Paging.Full (pageSize requested) pages := by
  simp [Done, Paging.Full]

/-! ## The stored messages -/

theorem receive_messages (chrono : Chrono) (s : InboundRows × List InboundMessage)
    (c : InboundCall) :
    (receive chrono s c).2 = s.2 ++ [⟨s.1.seq + 1, c.fromNumber, c.body, c.receivedAt⟩] := rfl

/-- The rows stand for the messages. -/
def Stands (chrono : Chrono) (s : InboundRows × List InboundMessage) : Prop :=
  s.1.rows = s.2.map (InboundMessage.row chrono)

theorem Stands.receive {chrono : Chrono} {s : InboundRows × List InboundMessage}
    (h : Stands chrono s) (c : InboundCall) : Stands chrono (Storage.receive chrono s c) :=
  foldl_receive_rows chrono [c] s h

theorem Stands.ids_nodup {chrono : Chrono} {s : InboundRows × List InboundMessage}
    (h : Stands chrono s) : (s.2.map InboundMessage.id).Nodup := by
  have hdistinct := s.1.distinct
  rw [h, List.map_map] at hdistinct
  exact hdistinct

/-- Equal times are told apart by the ids, so the listing has one order. -/
theorem Stands.ordered {chrono : Chrono} {s : InboundRows × List InboundMessage}
    (h : Stands chrono s) (limit offset : Int) :
    Paging.Ordered (newestFirst limit offset).before s.2 where
  nodup := h.ids_nodup.of_map
  antisymm a ha b hb hab hba := by
    simp only [newestFirst, Bool.or_eq_true, decide_eq_true_eq] at hab hba
    exact List.inj_on_of_nodup_map h.ids_nodup ha hb (by omega)

/-- A page that was read is a page of the messages. -/
theorem isPage_of_fetched {chrono : Chrono} (hprint : chrono.Prints)
    {stored : InboundRows × List InboundMessage} (hstands : Stands chrono stored)
    (hreads : ∀ m ∈ stored.2, chrono.Reads m.receivedAt) {requested : Option Int}
    {pages : List (List InboundMessage)} {answer : List InboundRow}
    (h : Fetched (nextRequest requested pages) stored.1.rows (.ok answer)) :
    ∃ page, listInboundMessages chrono answer = .ok page ∧
      Paging.IsPage (newestFirst (-1) 0).before (pageSize requested)
        (pages.length * pageSize requested) stored.2 page := by
  rw [Fetched, hstands] at h
  obtain ⟨page, hpage, rfl⟩ := listInbound_answers hprint h
  refine ⟨page, mapM_rows (fun m hm => inboundFromRow_row (hreads m (hpage.mem hm).1)), ?_⟩
  have hlimit := resolve_range (nextRequest requested pages)
  have hwindow := nextRequest_resolve requested pages
  have his := Paging.IsPage.of_answers hpage (fun _ => rfl) (by
    show 0 ≤ (nextRequest requested pages).resolve.1
    omega)
  rw [← hwindow.2, ← hwindow.1]
  exact his

/-- What the client reads is a reading of the messages. -/
theorem Listed.reading {chrono : Chrono} (hprint : chrono.Prints) {requested : Option Int}
    {s t : Listing} (h : Listed chrono requested s t) (hstands : Stands chrono s.stored)
    (hempty : s.pages = []) (hreads : ∀ m ∈ t.stored.2, chrono.Reads m.receivedAt) :
    Stands chrono t.stored ∧
    Paging.Reading (newestFirst (-1) 0).before (pageSize requested)
      s.stored.2 t.stored.2 t.pages := by
  induction h with
  | refl =>
      rw [hempty]
      exact ⟨hstands, .begins⟩
  | @received t c _ ih =>
      have hsub : t.stored.2.Sublist (receive chrono t.stored c).2 := by
        rw [receive_messages]
        exact List.sublist_append_left _ _
      obtain ⟨hstands', hreading⟩ := ih (fun m hm => hreads m (hsub.subset hm))
      exact ⟨hstands'.receive c, .added hreading hsub⟩
  | @requested t fetched retryAfterSecs _ hdone hfetched ih =>
      obtain ⟨hstands', hreading⟩ := ih hreads
      refine ⟨hstands', ?_⟩
      cases fetched with
      | error err => exact hreading
      | ok answer =>
          obtain ⟨page, hpage, his⟩ := isPage_of_fetched hprint hstands' hreads hfetched
          have hanswer : inboundHandler chrono retryAfterSecs (.ok answer) = .ok page := by
            unfold inboundHandler
            show (match listInboundMessages chrono answer with
              | .ok messages => InboundAnswer.ok messages
              | .error err => .error (dbErrorResponse err retryAfterSecs)) = _
            rw [hpage]
          rw [hanswer]
          exact .read hreading ((done_false_iff _ _).mp hdone) his

theorem newestFirst_run (messages : List InboundMessage) :
    (newestFirst (-1) 0).Answers messages ((newestFirst (-1) 0).run messages) := by
  apply Query.run_answers
  · intro a b c hab hbc
    simp only [newestFirst, Bool.or_eq_true, decide_eq_true_eq] at *
    omega
  · intro a b
    simp only [newestFirst, Bool.or_eq_true, decide_eq_true_eq]
    omega

/-! ## What the client has read -/

/-- A client that is done has read every message that was stored when it began,
however many were received meanwhile; what it has read are stored messages, newest
first on each page, at most as many entries as there are messages.  When none was
received, the pages are the whole listing, each message once. -/
theorem pages_cover {chrono : Chrono} (hprint : chrono.Prints) (requested : Option Int)
    (calls : List InboundCall) {t : Listing}
    (hlisted : Listed chrono requested ⟨receiveAll chrono calls, []⟩ t)
    (hreads : ∀ m ∈ t.stored.2, chrono.Reads m.receivedAt)
    (hdone : Done requested t.pages = true) :
    (∀ m ∈ (receiveAll chrono calls).2, m ∈ t.pages.flatten) ∧
    (∀ m ∈ t.pages.flatten, m ∈ t.stored.2) ∧
    (∀ page ∈ t.pages, page.Pairwise (fun a b => (newestFirst (-1) 0).before a b)) ∧
    t.pages.flatten.length ≤ t.stored.2.length ∧
    (t.stored = receiveAll chrono calls →
      (newestFirst (-1) 0).Answers (receiveAll chrono calls).2 t.pages.flatten) := by
  obtain ⟨hstands, hreading⟩ := hlisted.reading hprint (receiveAll_rows chrono calls) rfl hreads
  have hord := hstands.ordered (-1) 0
  have hshort : ¬ Paging.Full (pageSize requested) t.pages := by
    rw [← done_false_iff, hdone]
    decide
  refine ⟨hreading.covers hord hshort, fun m hm => hreading.mem hm, hreading.sorted,
    hreading.length_le, ?_⟩
  intro hstill
  have hlength : t.stored.2.length ≤ (receiveAll chrono calls).2.length := by rw [hstill]
  obtain ⟨sorted, hperm, hsorted, hrun⟩ := newestFirst_run (receiveAll chrono calls).2
  have hfilter : (receiveAll chrono calls).2.filter (newestFirst (-1) 0).keep
      = (receiveAll chrono calls).2 := List.filter_eq_self.mpr (fun _ _ => rfl)
  rw [hfilter] at hperm
  have hsame : t.pages.flatten = sorted :=
    hreading.eq_of_still hord hshort hlength hperm hsorted
  rw [hsame]
  refine ⟨sorted, ?_, hsorted, rfl⟩
  rw [hfilter]
  exact hperm

def sampleFirst : InboundMessage := ⟨1, "+14155550001", "second", sampleSecond⟩

/-- Pages of one message, with a newer message received after the first page: the
older one is read twice and the newer one not at all. -/
def sampleListing : Listing :=
  ⟨receiveAll sampleChrono sampleCalls, [[sampleFirst], [sampleFirst], []]⟩

theorem sampleListing_listed :
    Listed sampleChrono (some 1) ⟨receiveAll sampleChrono (sampleCalls.take 1), []⟩
      sampleListing := by
  have hrow : inboundFromRow sampleChrono (sampleFirst.row sampleChrono) = .ok sampleFirst :=
    inboundFromRow_row sampleChrono_reads.1
  have hlist : listInboundMessages sampleChrono [sampleFirst.row sampleChrono]
      = .ok [sampleFirst] := by
    rw [listInboundMessages, List.mapM_cons, hrow]
    rfl
  have hread (retryAfterSecs : Nat) (pages : List (List InboundMessage)) :
      readPage pages (inboundHandler sampleChrono retryAfterSecs
        (.ok [sampleFirst.row sampleChrono])) = pages ++ [[sampleFirst]] := by
    have hbind : ((.ok [sampleFirst.row sampleChrono] : Except DbError _) >>=
        listInboundMessages sampleChrono) = .ok [sampleFirst] := hlist
    rw [inboundHandler, hbind]
    rfl
  have hfirst : Listed sampleChrono (some 1)
      ⟨receiveAll sampleChrono (sampleCalls.take 1), []⟩
      ⟨receiveAll sampleChrono (sampleCalls.take 1),
        readPage [] (inboundHandler sampleChrono 5 (.ok [sampleFirst.row sampleChrono]))⟩ :=
    .requested 5 (.refl _) (by decide)
      ⟨[sampleFirst.row sampleChrono], by decide +kernel, by decide +kernel, rfl⟩
  rw [hread] at hfirst
  have hsecond : Listed sampleChrono (some 1)
      ⟨receiveAll sampleChrono (sampleCalls.take 1), []⟩
      ⟨receiveAll sampleChrono sampleCalls, readPage [[sampleFirst]]
        (inboundHandler sampleChrono 5 (.ok [sampleFirst.row sampleChrono]))⟩ :=
    .requested 5 (hfirst.received ⟨"+14155550002", "half", sampleHalf⟩) (by decide)
      ⟨(receiveAll sampleChrono sampleCalls).1.rows.reverse, by decide +kernel, by decide +kernel,
        by decide +kernel⟩
  rw [hread] at hsecond
  have hempty : readPage [[sampleFirst], [sampleFirst]] (inboundHandler sampleChrono 5 (.ok []))
      = [[sampleFirst], [sampleFirst], []] := rfl
  rw [sampleListing, ← hempty]
  exact .requested 5 hsecond (by decide)
    ⟨(receiveAll sampleChrono sampleCalls).1.rows.reverse, by decide +kernel, by decide +kernel,
      by decide +kernel⟩

theorem pages_cover_received :
    sampleFirst ∈ sampleListing.pages.flatten ∧ sampleListing.pages.flatten.length ≤ 2 := by
  have hreads : ∀ m ∈ sampleListing.stored.2, sampleChrono.Reads m.receivedAt := by
    intro m hm
    have hmem : m.receivedAt ∈ [sampleSecond, sampleHalf] := List.mem_map_of_mem hm
    simp only [List.mem_cons, List.not_mem_nil, or_false] at hmem
    rcases hmem with h | h
    · rw [h]
      exact sampleChrono_reads.1
    · rw [h]
      exact sampleChrono_reads.2
  have h := pages_cover (fun _ => rfl) (some 1) _ sampleListing_listed hreads (by decide +kernel)
  exact ⟨h.1 sampleFirst (List.mem_cons_self ..), h.2.2.2.1⟩

end Api
end GreenRelay
