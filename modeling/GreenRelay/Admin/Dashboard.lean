/-
The recent activity of the dashboard, with instants and the columns they are
stored in.

Each of the two message tables is cut to its newest 50 rows by a statement that
compares texts.  The rows that are left are joined, filtered by their age and cut
again, to 10.  Nothing is lost on the way: the texts compare as the instants do
(`recent_answers`), and a cut of cuts is the cut of everything
(`Greatest.append`).

What `chrono` computes is assumed for instants that are not leap seconds.  Every
stamp is a reading of `Utc::now`, whose clock has none.
-/
import GreenRelay.Admin.Portal
import GreenRelay.Lib.Greatest
import GreenRelay.Storage.Timestamps

namespace GreenRelay
namespace Admin
namespace Dashboard

open Rfc3339 (Instant)
open Storage (Chrono DbError OutboundMessage InboundMessage OutboundRow InboundRow recentQuery
  notOlder recentOutboundActivity recentInboundActivity recent_answers)

/-! ## Selection -/

/-- Durations are in nanoseconds. -/
structure Arithmetic where
  signedDurationSince : Instant → Instant → Int
  checkedSubSigned : Instant → Int → Option Instant

structure ActivityEntry where
  timestamp : Instant
  description : String
  deriving DecidableEq, Repr

def recentActivity (arith : Arithmetic) (entries : List ActivityEntry) (now : Instant) :
    List ActivityEntry :=
  let recent := entries.filter (fun entry =>
    let age := arith.signedDurationSince now entry.timestamp
    decide (0 ≤ age) && decide (age ≤ dayWindow))
  (recent.insertionSort (fun a b => b.timestamp.ticks ≤ a.timestamp.ticks)).take recentActivityLimit

structure DashboardData where
  health : ServiceHealth
  signalPercent : Option Nat
  recent : List ActivityEntry
  deriving DecidableEq, Repr

/-- What the two statements answer, by the text of the cutoff. -/
structure ActivityDb where
  recentOutbound : List Char → Except DbError (List OutboundRow)
  recentInbound : List Char → Except DbError (List InboundRow)

def describeOutbound (row : Storage.OutboundActivityRow) : ActivityEntry :=
  ⟨row.createdAt, "Outbound to " ++ row.toNumber ++ " (" ++ row.status ++ ")"⟩

def describeInbound (row : Storage.InboundActivityRow) : ActivityEntry :=
  ⟨row.receivedAt, "Inbound from " ++ row.fromNumber⟩

def recentMessageActivity (chrono : Chrono) (arith : Arithmetic) (db : ActivityDb)
    (nowUtc : Instant) : Except DbError (List ActivityEntry) := do
  let cutoff := chrono.toRfc3339 ((arith.checkedSubSigned nowUtc dayWindow).getD nowUtc)
  let outbound ← db.recentOutbound cutoff
  let inbound ← db.recentInbound cutoff
  return (recentOutboundActivity chrono outbound).map describeOutbound ++
    (recentInboundActivity chrono inbound).map describeInbound

def dashboardData (chrono : Chrono) (arith : Arithmetic) (db : ActivityDb)
    (snapshot : ModemStatusSnapshot) (nowUtc : Instant) : Except DbError DashboardData := do
  let recent ← recentMessageActivity chrono arith db nowUtc
  return ⟨deriveHealth snapshot, snapshot.signalPercent, recentActivity arith recent nowUtc⟩

/-! ## What is assumed of the clock -/

def Arithmetic.Measures (arith : Arithmetic) : Prop :=
  ∀ s t : Instant, s.NoLeap → t.NoLeap → arith.signedDurationSince t s = (t.nanos : Int) - s.nanos

/-- There is an instant a day before. -/
def Arithmetic.StepsBack (arith : Arithmetic) (now : Instant) : Prop :=
  ∃ cutoff, arith.checkedSubSigned now dayWindow = some cutoff ∧ cutoff.NoLeap ∧
    cutoff.nanos + dayWindow = now.nanos

/-- A stamp that was read from the clock by `now`, and reads back. -/
structure Stamped (chrono : Chrono) (now t : Instant) : Prop where
  noLeap : t.NoLeap
  reads : chrono.Reads t
  past : t.ticks ≤ now.ticks

/-- The statements answer from tables with the rows of these messages. -/
structure ActivityDb.Holds (chrono : Chrono) (db : ActivityDb) (outbound : List OutboundMessage)
    (inbound : List InboundMessage) : Prop where
  outbound : ∀ cutoff answer, db.recentOutbound cutoff = .ok answer →
    (recentQuery OutboundRow.createdAt cutoff).Answers (outbound.map (OutboundMessage.row chrono))
      answer
  inbound : ∀ cutoff answer, db.recentInbound cutoff = .ok answer →
    (recentQuery InboundRow.receivedAt cutoff).Answers (inbound.map (InboundMessage.row chrono))
      answer

def ActivityDb.ofTables (outbound : List OutboundRow) (inbound : List InboundRow) : ActivityDb where
  recentOutbound cutoff := .ok ((recentQuery OutboundRow.createdAt cutoff).run outbound)
  recentInbound cutoff := .ok ((recentQuery InboundRow.receivedAt cutoff).run inbound)

/-- The tables that the program writes hold the messages it wrote. -/
theorem ActivityDb.holds_written (chrono : Chrono) (writes : List Storage.OutboundWrite)
    (calls : List Storage.InboundCall) :
    (ActivityDb.ofTables (writes.foldl (Storage.writeOutbound chrono) Table.empty).rows
      (Storage.receiveAll chrono calls).1.rows).Holds chrono
        (writes.foldl Storage.OutboundWrite.apply Table.empty).rows
        (Storage.receiveAll chrono calls).2 := by
  constructor
  · intro cutoff answer h
    cases h
    rw [← Storage.outbound_rows]
    exact Storage.recentQuery_run _ _ _
  · intro cutoff answer h
    cases h
    rw [← Storage.receiveAll_rows]
    exact Storage.recentQuery_run _ _ _

/-! ## The newest ten -/

def ofOutbound (m : OutboundMessage) : ActivityEntry := describeOutbound m.activity

def ofInbound (m : InboundMessage) : ActivityEntry := describeInbound m.activity

def entriesOf (outbound : List OutboundMessage) (inbound : List InboundMessage) :
    List ActivityEntry :=
  outbound.map ofOutbound ++ inbound.map ofInbound

def withinDay (now : Instant) (entry : ActivityEntry) : Bool :=
  decide (entry.timestamp.nanos ≤ now.nanos) &&
    decide (now.nanos ≤ entry.timestamp.nanos + dayWindow)

def newest (entry : ActivityEntry) : Nat := entry.timestamp.ticks

section

variable {chrono : Chrono} {arith : Arithmetic} {now : Instant}

/-- For a clock reading the cutoff and the age say the same. -/
theorem withinDay_eq {cutoff : Instant} (hnow : now.NoLeap) (hcutoff : cutoff.NoLeap)
    (hday : cutoff.nanos + dayWindow = now.nanos) {entry : ActivityEntry}
    (hstamp : Stamped chrono now entry.timestamp) :
    withinDay now entry = decide (cutoff.ticks ≤ entry.timestamp.ticks) := by
  have hpast := (Instant.nanos_le_iff hstamp.noLeap hnow).mpr hstamp.past
  have hcut := Instant.nanos_le_iff hcutoff hstamp.noLeap
  rw [withinDay, decide_eq_true hpast, Bool.true_and]
  apply decide_eq_decide.mpr
  rw [← hcut]
  omega

theorem age_within (hmeasures : arith.Measures) (hnow : now.NoLeap) {entry : ActivityEntry}
    (hstamp : entry.timestamp.NoLeap) (h : withinDay now entry = true) :
    0 ≤ arith.signedDurationSince now entry.timestamp ∧
      arith.signedDurationSince now entry.timestamp ≤ dayWindow := by
  rw [withinDay, Bool.and_eq_true, decide_eq_true_iff, decide_eq_true_iff] at h
  rw [hmeasures _ _ hstamp hnow]
  omega

/-- What one statement leaves of its table. -/
theorem answer_greatest (hprint : chrono.Prints) {μ ρ : Type} {row : μ → ρ}
    {column : ρ → List Char} {entry : μ → ActivityEntry}
    (hcolumn : ∀ m, column (row m) = chrono.toRfc3339 (entry m).timestamp) {ms : List μ}
    {cutoff : Instant} {answer : List ρ}
    (h : (recentQuery column (chrono.toRfc3339 cutoff)).Answers (ms.map row) answer) :
    ∃ recent : List μ, (∀ m ∈ recent, m ∈ ms) ∧ answer = recent.map row ∧
      Greatest newest 50
        ((ms.map entry).filter (fun e => decide (cutoff.ticks ≤ e.timestamp.ticks)))
        (recent.map entry) := by
  obtain ⟨recent, hrecent, hanswer⟩ :=
    @recent_answers chrono hprint μ ρ row column (fun m => (entry m).timestamp) hcolumn ms cutoff
      answer h
  refine ⟨recent, fun m hm => (hrecent.mem hm).1, hanswer, ?_⟩
  have hgreatest : Greatest (fun m => newest (entry m)) 50
      (ms.filter (notOlder (fun m => (entry m).timestamp) cutoff).keep) recent :=
    hrecent.greatest (fun _ _ hab => of_decide_eq_true hab) rfl rfl
  rw [List.filter_map]
  exact hgreatest.map

theorem recentActivity_greatest {entries : List ActivityEntry} (hmeasures : arith.Measures)
    (hnow : now.NoLeap) (hnoLeap : ∀ e ∈ entries, e.timestamp.NoLeap)
    (hwithin : ∀ e ∈ entries, withinDay now e = true) :
    Greatest newest 10 entries (recentActivity arith entries now) := by
  have hfilter : entries.filter (fun entry =>
      decide (0 ≤ arith.signedDurationSince now entry.timestamp) &&
        decide (arith.signedDurationSince now entry.timestamp ≤ dayWindow)) = entries := by
    apply List.filter_eq_self.mpr
    intro e he
    have hage := age_within hmeasures hnow (hnoLeap e he) (hwithin e he)
    rw [decide_eq_true hage.1, decide_eq_true hage.2, Bool.and_self]
  have : Std.Total (fun a b : ActivityEntry => b.timestamp.ticks ≤ a.timestamp.ticks) :=
    ⟨fun a b => Nat.le_total _ _⟩
  have : IsTrans ActivityEntry (fun a b => b.timestamp.ticks ≤ a.timestamp.ticks) :=
    ⟨fun a b c hab hbc => Nat.le_trans hbc hab⟩
  rw [recentActivity, hfilter]
  exact Greatest.of_sorted (List.perm_insertionSort _ _) (List.pairwise_insertionSort _ _)

/-- Every entry left by the two statements is shown or gives way to newer ones. -/
theorem recent_greatest (hmeasures : arith.Measures) (hnow : now.NoLeap)
    {outbound recentOut : List OutboundMessage} {inbound recentIn : List InboundMessage}
    (hstamped : ∀ e ∈ entriesOf outbound inbound, Stamped chrono now e.timestamp)
    (hout : Greatest newest 50 ((outbound.map ofOutbound).filter (withinDay now))
      (recentOut.map ofOutbound))
    (hin : Greatest newest 50 ((inbound.map ofInbound).filter (withinDay now))
      (recentIn.map ofInbound)) :
    Greatest newest 10 ((entriesOf outbound inbound).filter (withinDay now))
      (recentActivity arith (recentOut.map ofOutbound ++ recentIn.map ofInbound) now) := by
  have hkept : ∀ e ∈ recentOut.map ofOutbound ++ recentIn.map ofInbound,
      e ∈ entriesOf outbound inbound ∧ withinDay now e = true := by
    intro e he
    rcases List.mem_append.mp he with he | he
    · have hmem := List.mem_filter.mp (hout.subset he)
      exact ⟨List.mem_append_left _ hmem.1, hmem.2⟩
    · have hmem := List.mem_filter.mp (hin.subset he)
      exact ⟨List.mem_append_right _ hmem.1, hmem.2⟩
  rw [entriesOf, List.filter_append]
  refine hout.append (by omega) hin ?_
  exact recentActivity_greatest hmeasures hnow (fun e he => (hstamped e (hkept e he).1).noLeap)
    (fun e he => (hkept e he).2)

/-- The entries of both answers, or what one of the statements failed with. -/
theorem recentMessageActivity_end (chrono : Chrono) {cutoff : Instant}
    (hsub : arith.checkedSubSigned now dayWindow = some cutoff) (db : ActivityDb) :
    (∃ outbound inbound, db.recentOutbound (chrono.toRfc3339 cutoff) = .ok outbound ∧
      db.recentInbound (chrono.toRfc3339 cutoff) = .ok inbound ∧
      recentMessageActivity chrono arith db now = .ok
        ((recentOutboundActivity chrono outbound).map describeOutbound ++
          (recentInboundActivity chrono inbound).map describeInbound)) ∨
    ∃ error, recentMessageActivity chrono arith db now = .error error ∧
      (db.recentOutbound (chrono.toRfc3339 cutoff) = .error error ∨
        db.recentInbound (chrono.toRfc3339 cutoff) = .error error) := by
  rw [recentMessageActivity, hsub, Option.getD_some]
  cases hout : db.recentOutbound (chrono.toRfc3339 cutoff) with
  | error e => exact Or.inr ⟨e, rfl, Or.inl rfl⟩
  | ok outbound =>
      cases hin : db.recentInbound (chrono.toRfc3339 cutoff) with
      | error e => exact Or.inr ⟨e, rfl, Or.inr rfl⟩
      | ok inbound => exact Or.inl ⟨outbound, inbound, rfl, rfl, rfl⟩

theorem recentOutbound_entries {ms : List OutboundMessage}
    (h : ∀ m ∈ ms, chrono.Reads m.createdAt) :
    (recentOutboundActivity chrono (ms.map (OutboundMessage.row chrono))).map describeOutbound
      = ms.map ofOutbound := by
  rw [Storage.recentOutboundActivity_rows h, List.map_map]
  rfl

theorem recentInbound_entries {ms : List InboundMessage}
    (h : ∀ m ∈ ms, chrono.Reads m.receivedAt) :
    (recentInboundActivity chrono (ms.map (InboundMessage.row chrono))).map describeInbound
      = ms.map ofInbound := by
  rw [Storage.recentInboundActivity_rows h, List.map_map]
  rfl

/-- The dashboard shows the ten newest of the entries of the last 24 hours, or all
of them when there are fewer, newest first.  It shows nothing only when one of the
statements fails. -/
theorem dashboard_newest_ten (hprint : chrono.Prints) (hmeasures : arith.Measures)
    (hnow : now.NoLeap) (hback : arith.StepsBack now) {outbound : List OutboundMessage}
    {inbound : List InboundMessage}
    (hstamped : ∀ e ∈ entriesOf outbound inbound, Stamped chrono now e.timestamp) {db : ActivityDb}
    (hdb : db.Holds chrono outbound inbound) (snapshot : ModemStatusSnapshot) :
    (∀ data, dashboardData chrono arith db snapshot now = .ok data →
      data.health = deriveHealth snapshot ∧ data.signalPercent = snapshot.signalPercent ∧
      Greatest newest 10 ((entriesOf outbound inbound).filter (withinDay now)) data.recent) ∧
    (∀ error, dashboardData chrono arith db snapshot now = .error error →
      ∃ cutoff, db.recentOutbound cutoff = .error error ∨
        db.recentInbound cutoff = .error error) := by
  obtain ⟨cutoff, hsub, hcutoff, hday⟩ := hback
  have hkeep {entries : List ActivityEntry} (h : ∀ e ∈ entries, e ∈ entriesOf outbound inbound) :
      entries.filter (fun e => decide (cutoff.ticks ≤ e.timestamp.ticks))
        = entries.filter (withinDay now) :=
    List.filter_congr (fun e he => (withinDay_eq hnow hcutoff hday (hstamped e (h e he))).symm)
  rcases recentMessageActivity_end chrono hsub db with
    ⟨answerOut, answerIn, hout, hin, hactivity⟩ | ⟨error, hactivity, hfailed⟩
  · have hcolumnOut (m : OutboundMessage) :
        (m.row chrono).createdAt = chrono.toRfc3339 (ofOutbound m).timestamp := rfl
    have hcolumnIn (m : InboundMessage) :
        (m.row chrono).receivedAt = chrono.toRfc3339 (ofInbound m).timestamp := rfl
    obtain ⟨recentOut, hmemOut, rfl, hcutOut⟩ :=
      answer_greatest hprint hcolumnOut (hdb.outbound _ _ hout)
    obtain ⟨recentIn, hmemIn, rfl, hcutIn⟩ :=
      answer_greatest hprint hcolumnIn (hdb.inbound _ _ hin)
    rw [hkeep (fun e he => List.mem_append_left _ he)] at hcutOut
    rw [hkeep (fun e he => List.mem_append_right _ he)] at hcutIn
    have hreadOut : ∀ m ∈ recentOut, chrono.Reads m.createdAt := fun m hm =>
      (hstamped _ (List.mem_append_left _ (List.mem_map_of_mem (hmemOut m hm)))).reads
    have hreadIn : ∀ m ∈ recentIn, chrono.Reads m.receivedAt := fun m hm =>
      (hstamped _ (List.mem_append_right _ (List.mem_map_of_mem (hmemIn m hm)))).reads
    rw [recentOutbound_entries hreadOut, recentInbound_entries hreadIn] at hactivity
    rw [dashboardData, hactivity]
    refine ⟨fun data h => ?_, fun error h => ?_⟩
    · cases h
      exact ⟨rfl, rfl, recent_greatest hmeasures hnow hstamped hcutOut hcutIn⟩
    · cases h
  · rw [dashboardData, hactivity]
    refine ⟨fun data h => ?_, fun error h => ?_⟩
    · cases h
    · cases h
      exact ⟨_, hfailed⟩

end

def sampleDayBefore : Instant :=
  { Storage.sampleHalf with
    month := 5, day := 31
    month_pos := by decide, month_le := by decide, day_pos := by decide, day_le := by decide }

def sampleArithmetic : Arithmetic where
  signedDurationSince t s := (t.nanos : Int) - s.nanos
  checkedSubSigned t duration :=
    if t = Storage.sampleHalf ∧ duration = dayWindow then some sampleDayBefore else none

def sampleWrites : List Storage.OutboundWrite :=
  [.create Storage.sampleSecond "+14155550003" "hi" .queued 1,
    .setStatus Storage.sampleHalf 1 .sent (some "7") none]

def sampleOutbound : List OutboundMessage :=
  (sampleWrites.foldl Storage.OutboundWrite.apply Table.empty).rows

def sampleInbound : List InboundMessage :=
  (Storage.receiveAll Storage.sampleChrono Storage.sampleCalls).2

def sampleDb : ActivityDb :=
  .ofTables (sampleWrites.foldl (Storage.writeOutbound Storage.sampleChrono) Table.empty).rows
    (Storage.receiveAll Storage.sampleChrono Storage.sampleCalls).1.rows

theorem dashboard_newest_ten_mixed :
    ∃ recent, dashboardData Storage.sampleChrono sampleArithmetic sampleDb
        ⟨true, .ready, true, true, some 75, none⟩ Storage.sampleHalf
          = .ok ⟨.healthy, some 75, recent⟩ ∧
      Greatest newest 10 ((entriesOf sampleOutbound sampleInbound).filter
        (withinDay Storage.sampleHalf)) recent := by
  have hback : sampleArithmetic.StepsBack Storage.sampleHalf :=
    ⟨sampleDayBefore, by decide +kernel, by decide, by decide +kernel⟩
  have hstamped : ∀ e ∈ entriesOf sampleOutbound sampleInbound,
      Stamped Storage.sampleChrono Storage.sampleHalf e.timestamp := by
    intro e he
    have htimes : (entriesOf sampleOutbound sampleInbound).map ActivityEntry.timestamp
        = [Storage.sampleSecond, Storage.sampleSecond, Storage.sampleHalf] := rfl
    have hmem := List.mem_map_of_mem (f := ActivityEntry.timestamp) he
    rw [htimes] at hmem
    simp only [List.mem_cons, List.not_mem_nil, or_false] at hmem
    have hreads := Storage.sampleChrono_reads
    rcases hmem with h | h | h <;> rw [h]
    · exact ⟨by decide, hreads.1, by decide +kernel⟩
    · exact ⟨by decide, hreads.1, by decide +kernel⟩
    · exact ⟨by decide, hreads.2, by decide +kernel⟩
  have h := dashboard_newest_ten (fun _ => rfl) (fun _ _ _ _ => rfl) (by decide)
    hback hstamped (ActivityDb.holds_written _ _ _) ⟨true, .ready, true, true, some 75, none⟩
  cases hdata : dashboardData Storage.sampleChrono sampleArithmetic sampleDb
      ⟨true, .ready, true, true, some 75, none⟩ Storage.sampleHalf with
  | error error =>
      obtain ⟨cutoff, hfail | hfail⟩ := h.2 error hdata
      · cases hfail
      · cases hfail
  | ok data =>
      obtain ⟨hhealth, hsignal, hrecent⟩ := h.1 data hdata
      have hhealthy : data.health = .healthy := hhealth
      have hpercent : data.signalPercent = some 75 := hsignal
      refine ⟨data.recent, ?_, hrecent⟩
      rw [← hhealthy, ← hpercent]

/-! ## The portal's dashboard

The handlers count time in nanoseconds (`Portal`).  What they show is what is
shown here. -/

def ActivityEntry.inNanos (entry : ActivityEntry) : Admin.ActivityEntry :=
  ⟨entry.timestamp.nanos, entry.description⟩

theorem ActivityEntry.inNanos_timestamp (entry : ActivityEntry) :
    entry.inNanos.timestamp = entry.timestamp.nanos := rfl

def DashboardData.inNanos (data : DashboardData) : Admin.DashboardData :=
  ⟨data.health, data.signalPercent, data.recent.map ActivityEntry.inNanos⟩

def outboundInNanos (row : Storage.OutboundActivityRow) : Admin.OutboundActivityRow :=
  ⟨row.createdAt.nanos, row.status, row.toNumber⟩

def inboundInNanos (row : Storage.InboundActivityRow) : Admin.InboundActivityRow :=
  ⟨row.receivedAt.nanos, row.fromNumber⟩

/-- The portal's calls fail or answer as the statements do. -/
structure Portrays (chrono : Chrono) (arith : Arithmetic) (db : ActivityDb) (now : Instant)
    (s : AdminState) (m : Moment) : Prop where
  clock : m.nowUtc = now.nanos
  outbound : (db.recentOutbound
      (chrono.toRfc3339 ((arith.checkedSubSigned now dayWindow).getD now))).toOption.map
      (fun rows => (recentOutboundActivity chrono rows).map outboundInNanos)
    = if m.fails .recentOutboundActivity then none
      else some (s.db.recentOutboundActivity (m.nowUtc - dayWindow))
  inbound : (db.recentInbound
      (chrono.toRfc3339 ((arith.checkedSubSigned now dayWindow).getD now))).toOption.map
      (fun rows => (recentInboundActivity chrono rows).map inboundInNanos)
    = if m.fails .recentInboundActivity then none
      else some (s.db.recentInboundActivity (m.nowUtc - dayWindow))

theorem recentActivity_inNanos {arith : Arithmetic} {now : Instant} (hmeasures : arith.Measures)
    (hnow : now.NoLeap) {entries : List ActivityEntry}
    (hnoLeap : ∀ e ∈ entries, e.timestamp.NoLeap) :
    (recentActivity arith entries now).map ActivityEntry.inNanos
      = Admin.recentActivity (entries.map ActivityEntry.inNanos) now.nanos := by
  have hfilter : entries.filter (fun entry =>
      decide (0 ≤ arith.signedDurationSince now entry.timestamp) &&
        decide (arith.signedDurationSince now entry.timestamp ≤ dayWindow))
      = entries.filter ((fun e : Admin.ActivityEntry => decide (e.timestamp ≤ now.nanos) &&
          decide (now.nanos - e.timestamp ≤ dayWindow)) ∘ ActivityEntry.inNanos) := by
    apply List.filter_congr
    intro e he
    have hage := hmeasures e.timestamp now (hnoLeap e he) hnow
    rw [Function.comp_apply, e.inNanos_timestamp, hage, ← Bool.decide_and, ← Bool.decide_and]
    apply decide_eq_decide.mpr
    omega
  rw [recentActivity, Admin.recentActivity, hfilter, List.filter_map, List.map_take]
  congr 1
  apply List.map_insertionSort
  intro a ha b hb
  have hleA := hnoLeap a (List.mem_of_mem_filter ha)
  have hleB := hnoLeap b (List.mem_of_mem_filter hb)
  rw [a.inNanos_timestamp, b.inNanos_timestamp, Instant.nanos_le_iff hleB hleA]

theorem recentMessageActivity_inNanos {chrono : Chrono} {arith : Arithmetic} {db : ActivityDb}
    {now : Instant} {s : AdminState} {m : Moment} (h : Portrays chrono arith db now s m) :
    Admin.recentMessageActivity s m = (recentMessageActivity chrono arith db now).toOption.map
      (List.map ActivityEntry.inNanos) := by
  obtain ⟨-, hout, hin⟩ := h
  rw [Admin.recentMessageActivity, recentMessageActivity]
  cases hqout : db.recentOutbound
      (chrono.toRfc3339 ((arith.checkedSubSigned now dayWindow).getD now)) with
  | error error =>
      rw [hqout] at hout
      cases hfails : m.fails .recentOutboundActivity with
      | true => rfl
      | false => simp [hfails, Except.toOption] at hout
  | ok rowsOut =>
      cases hqin : db.recentInbound
          (chrono.toRfc3339 ((arith.checkedSubSigned now dayWindow).getD now)) with
      | error error =>
          rw [hqin] at hin
          cases hfails : m.fails .recentInboundActivity with
          | true =>
              rw [Bool.or_true]
              rfl
          | false => simp [hfails, Except.toOption] at hin
      | ok rowsIn =>
          rw [hqout] at hout
          rw [hqin] at hin
          cases hfailsOut : m.fails .recentOutboundActivity with
          | true => simp [hfailsOut, Except.toOption] at hout
          | false =>
              cases hfailsIn : m.fails .recentInboundActivity with
              | true => simp [hfailsIn, Except.toOption] at hin
              | false =>
                  simp only [hfailsOut, Except.toOption, Option.map_some, Bool.false_eq_true,
                    if_false, Option.some.injEq] at hout
                  simp only [hfailsIn, Except.toOption, Option.map_some, Bool.false_eq_true,
                    if_false, Option.some.injEq] at hin
                  rw [← hout, ← hin]
                  show some _ = some (List.map ActivityEntry.inNanos (_ ++ _))
                  rw [List.map_append, List.map_map, List.map_map, List.map_map, List.map_map]
                  rfl

theorem dashboardData_inNanos {chrono : Chrono} {arith : Arithmetic} {db : ActivityDb}
    {now : Instant} {s : AdminState} {m : Moment} (hmeasures : arith.Measures)
    (hnow : now.NoLeap) (h : Portrays chrono arith db now s m)
    (hnoLeap : ∀ entries, recentMessageActivity chrono arith db now = .ok entries →
      ∀ e ∈ entries, e.timestamp.NoLeap) :
    (dashboardData chrono arith db s.modem now).toOption.map DashboardData.inNanos
      = Admin.dashboardData s m := by
  rw [dashboardData, Admin.dashboardData, recentMessageActivity_inNanos h]
  cases hactivity : recentMessageActivity chrono arith db now with
  | error error => rfl
  | ok entries =>
      show some (DashboardData.mk _ _ (recentActivity arith entries now)).inNanos = some _
      rw [DashboardData.inNanos, recentActivity_inNanos hmeasures hnow (hnoLeap entries hactivity),
        h.clock]

end Dashboard
end Admin
end GreenRelay
