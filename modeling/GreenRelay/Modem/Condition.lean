/-
What the modem says of itself and what is shown of it.

A refresh asks for the registration, the signal and the operator.  Each answer is
told by its first line with the tag of the command, whose fields the modem may pad
with spaces, quote and follow up with others; lines without the tag may come
around it.  What such a line says is what is parsed from it, and the snapshot, the
status response and the metrics show the last refresh that was completed, at every
point of every run (`status_reports_modem`).
-/
import GreenRelay.Modem.DetailedHeader
import GreenRelay.Modem.Snapshot

namespace GreenRelay
namespace Modem

open Text

/-! ## Answers to the status commands -/

/-- The registration status, the signal strength and the operator, if there is one. -/
structure Condition where
  stat : Nat
  rssi : Nat
  operator : Option String
  deriving DecidableEq, Repr

/-- Registered at home or roaming. -/
def Condition.registered (c : Condition) : Bool := c.stat = 1 || c.stat = 5

/-- The strength runs from 0 to 31; larger numbers do not tell one. -/
def Condition.percent (c : Condition) : Option Nat :=
  if c.rssi ≤ 31 then some (c.rssi * 100 / 31) else none

/-- The first line with the tag is such that `P`. -/
def Told (tag : String) (P : String → Prop) (lines : List String) : Prop :=
  ∃ before line after, lines = before ++ line :: after ∧
    (∀ l ∈ before, stripPrefix tag.toList (trim l.toList) = none) ∧ P line

/-- The line has the tag, and these fields after it. -/
abbrev Tagged (tag line : String) (fields : List (List Char)) : Prop :=
  trim line.toList = tag.toList ++ join [','] fields

/-- A number, in quotes or not. -/
def IsNumber (n : Nat) (field : Option (List Char)) : Prop :=
  field.map trim = some (Nat.toDigits 10 n) ∨ field.map trim = some (quoted (Nat.toDigits 10 n))

def IsCreg (stat : Nat) (line : String) : Prop :=
  ∃ fields, Tagged "+CREG:" line fields ∧ (∀ f ∈ fields, ',' ∉ f) ∧ IsNumber stat fields[1]?

def IsCsq (rssi : Nat) (line : String) : Prop :=
  ∃ fields, Tagged "+CSQ:" line fields ∧ (∀ f ∈ fields, ',' ∉ f) ∧
    fields[0]?.map trim = some (Nat.toDigits 10 rssi)

/-- Commas in quotes are part of a field. -/
def IsCops (operator : Option String) (line : String) : Prop :=
  ∃ fields, Tagged "+COPS:" line fields ∧ fields ≠ [] ∧ (∀ f ∈ fields, IsField f) ∧
    match operator with
    | some name => name ≠ "" ∧ '"' ∉ name.toList ∧
        fields[2]?.map trim = some (quoted name.toList)
    | none => fields[2]? = none

structure Condition.ToldBy (c : Condition) (r : Refresh) : Prop where
  creg : Told "+CREG:" (IsCreg c.stat) r.creg.lines
  csq : Told "+CSQ:" (IsCsq c.rssi) r.csq.lines
  cops : Told "+COPS:" (IsCops c.operator) r.cops.lines

/-! ## Parsing them -/

theorem findTagged_told {tag line : String} {before after : List String} {rest : List Char}
    (hbefore : ∀ l ∈ before, stripPrefix tag.toList (trim l.toList) = none)
    (hline : trim line.toList = tag.toList ++ rest) :
    findTagged tag (before ++ line :: after) = some rest := by
  have hnone : before.findSome? (fun l => stripPrefix tag.toList (trim l.toList)) = none :=
    List.findSome?_eq_none_iff.mpr hbefore
  rw [findTagged, List.findSome?_append, hnone, Option.none_or, List.findSome?_cons,
    stripPrefix_eq_some.mpr hline]

theorem Told.found {tag : String} {P : String → Prop} {lines : List String}
    (h : Told tag P lines) : ∃ line, P line ∧ ∀ fields, Tagged tag line fields →
      findTagged tag lines = some (join [','] fields) := by
  obtain ⟨before, line, after, rfl, hbefore, hline⟩ := h
  exact ⟨line, hline, fun fields hfields => findTagged_told hbefore hfields⟩

theorem splitOn_join {fields : List (List Char)} (hne : fields ≠ []) (h : ∀ f ∈ fields, ',' ∉ f) :
    (join [','] fields).splitOn ',' = fields :=
  List.splitOn_intercalate ',' h hne

theorem ne_nil_of_getElem? {fields : List (List Char)} {i : Nat} {f : List Char}
    (h : fields[i]?.map trim = some f) : fields ≠ [] := by
  intro hnil
  rw [hnil] at h
  cases h

theorem quote_notMem_toDigits (n : Nat) : '"' ∉ Nat.toDigits 10 n :=
  fun h => absurd (isDigit_toDigits h) (by decide)

theorem toDigits_eq_iff (m n : Nat) : Nat.toDigits 10 m = Nat.toDigits 10 n ↔ m = n := by
  constructor
  · intro h
    have hread := congrArg (parseUnsigned (m + n + 1)) h
    rw [parseUnsigned_toDigits, parseUnsigned_toDigits, if_pos (by omega),
      if_pos (by omega)] at hread
    exact Option.some.inj hread
  · exact fun h => by rw [h]

theorem parseCregRegistered_told {stat : Nat} {lines : List String}
    (h : Told "+CREG:" (IsCreg stat) lines) :
    parseCregRegistered lines = (stat = 1 || stat = 5 : Bool) := by
  obtain ⟨line, ⟨fields, htagged, hcommas, hnumber⟩, hfound⟩ := h.found
  have hne : fields ≠ [] := hnumber.elim ne_nil_of_getElem? ne_nil_of_getElem?
  have hread : ∃ f, fields[1]? = some f ∧ trimMatches '"' (trim f) = Nat.toDigits 10 stat := by
    rcases hnumber with hplain | hquoted
    · obtain ⟨f, hf, htrim⟩ := Option.map_eq_some_iff.mp hplain
      exact ⟨f, hf, by rw [htrim, trimMatches_plain (quote_notMem_toDigits stat)]⟩
    · obtain ⟨f, hf, htrim⟩ := Option.map_eq_some_iff.mp hquoted
      exact ⟨f, hf, by rw [htrim, quoted, trimMatches_between (quote_notMem_toDigits stat)]⟩
  obtain ⟨f, hf, htrim⟩ := hread
  have hone : Nat.toDigits 10 1 = ['1'] := by decide
  have hfive : Nat.toDigits 10 5 = ['5'] := by decide
  rw [parseCregRegistered, hfound fields htagged]
  simp only [splitOn_join hne hcommas, hf, htrim]
  rw [← hone, ← hfive, Bool.eq_iff_iff]
  simp only [Bool.or_eq_true, beq_iff_eq, decide_eq_true_eq, toDigits_eq_iff]

theorem parseCsqPercent_told {c : Condition} {lines : List String}
    (h : Told "+CSQ:" (IsCsq c.rssi) lines) : parseCsqPercent lines = c.percent := by
  obtain ⟨line, ⟨fields, htagged, hcommas, hnumber⟩, hfound⟩ := h.found
  obtain ⟨f, hf, htrim⟩ := Option.map_eq_some_iff.mp hnumber
  have hhead : ((join [','] fields).splitOn ',').head? = some f := by
    rw [splitOn_join (ne_nil_of_getElem? hnumber) hcommas, List.head?_eq_getElem?, hf]
  rw [parseCsqPercent, hfound fields htagged, Condition.percent]
  simp only [Option.bind_eq_bind, Option.bind_some, hhead, htrim, parseU32,
    parseUnsigned_toDigits]
  by_cases hrange : c.rssi ≤ 31
  · rw [if_pos (by omega), if_pos hrange]
    show (if _ then _ else _) = _
    rw [if_neg (by omega)]
  · rw [if_neg hrange]
    split
    · show (if _ then _ else _) = _
      rw [if_pos (by omega)]
    · rfl

theorem parseCopsOperator_told {operator : Option String} {lines : List String}
    (h : Told "+COPS:" (IsCops operator) lines) : parseCopsOperator lines = operator := by
  obtain ⟨line, ⟨fields, htagged, hne, hfields, hoperator⟩, hfound⟩ := h.found
  obtain ⟨trimmed, htrim, htrimmed, hclosed, hmap⟩ := trim_join hne hfields
  have hthird := congrArg (fun l => l[2]?) hmap
  simp only [List.getElem?_map] at hthird
  rw [parseCopsOperator, hfound fields htagged]
  simp only [Option.bind_eq_bind, Option.bind_some, htrim, splitQuotedCsv_join htrimmed hclosed]
  cases operator with
  | none =>
    rw [hoperator, Option.map_none, Option.map_eq_none_iff] at hthird
    rw [hthird]
    rfl
  | some name =>
    obtain ⟨hname, hquote, hfield⟩ := hoperator
    rw [hfield] at hthird
    obtain ⟨f, hf, hquoted⟩ := Option.map_eq_some_iff.mp hthird
    have hempty : name.toList.isEmpty = false := by
      rw [List.isEmpty_eq_false_iff]
      exact fun hnil => hname (String.toList_eq_nil_iff.mp hnil)
    rw [hf, Option.bind_some, hquoted, quoted, trimMatches_between hquote]
    simp only [hempty, String.ofList_toList]
    rfl

/-! ## What is shown -/

/-- At every point of every run, where the last refresh that was completed was told
the modem's condition, the snapshot, the status response and the metrics show this
condition. -/
theorem status_reports_modem (cfg : Config) (script : List Answer) (metrics : Api.Metrics)
    {t : List Event} (ht : t <+: (runModemManager cfg script).trace) {r : Refresh}
    (hr : (observe t).refresh = some r) {c : Condition} (hc : c.ToldBy r) :
    (Api.buildStatusResponse (observe t).shown).signalPercent = c.percent ∧
    (Api.buildStatusResponse (observe t).shown).operator = c.operator ∧
    (Api.buildStatusResponse (observe t).shown).registered
      = (if (observe t).shown.responsive then some c.registered else none) ∧
    Api.sample (metrics.render (observe t).shown) "green_relay_modem_registered"
      = some (toString c.registered.toNat).toList ∧
    Api.sample (metrics.render (observe t).shown) "green_relay_modem_signal_percent"
      = c.percent.map (fun percent => (toString percent).toList) := by
  have hcarries := (runModemManager_snapshots cfg script ht).carries
  rw [hr] at hcarries
  obtain ⟨hregistered, hsignal, hoperator⟩ := hcarries
  have hreg : (observe t).shown.registered = c.registered :=
    hregistered.trans (parseCregRegistered_told hc.creg)
  have hsig : (observe t).shown.signalPercent = c.percent :=
    hsignal.trans (parseCsqPercent_told hc.csq)
  refine ⟨hsig, hoperator.trans (parseCopsOperator_told hc.cops), ?_, ?_, ?_⟩
  · rw [← hreg]
    rfl
  · rw [Api.sample_registered, hreg]
  · rw [Api.sample_signal, hsig]

deriving instance DecidableEq for Refresh

/-- The modem that is lost after its first refresh. -/
theorem status_reports_modem_lost :
    (Api.buildStatusResponse
      (observe (runModemManager plainConfig lostScript).trace).shown).operator = some "Carrier" ∧
    Api.sample (Api.Metrics.render ⟨0, 0, 0, 0, 0⟩
      (observe (runModemManager plainConfig lostScript).trace).shown)
        "green_relay_modem_signal_percent" = some ['4', '8'] := by
  have hr : (observe (runModemManager plainConfig lostScript).trace).refresh
      = some ⟨⟨"AT+CREG?", ["+CREG: 0,1", "OK"], .ok⟩, ⟨"AT+CSQ", ["+CSQ: 15,99", "OK"], .ok⟩,
          ⟨"AT+COPS?", ["+COPS: 0,0,\"Carrier\"", "OK"], .ok⟩⟩ := by
    decide +kernel
  have hc : Condition.ToldBy ⟨1, 15, some "Carrier"⟩
      ⟨⟨"AT+CREG?", ["+CREG: 0,1", "OK"], .ok⟩, ⟨"AT+CSQ", ["+CSQ: 15,99", "OK"], .ok⟩,
          ⟨"AT+COPS?", ["+COPS: 0,0,\"Carrier\"", "OK"], .ok⟩⟩ := by
    refine ⟨⟨[], "+CREG: 0,1", ["OK"], rfl, by simp, ?_⟩,
      ⟨[], "+CSQ: 15,99", ["OK"], rfl, by simp, ?_⟩,
      ⟨[], "+COPS: 0,0,\"Carrier\"", ["OK"], rfl, by simp, ?_⟩⟩
    · exact ⟨[[' ', '0'], ['1']], by decide +kernel, by decide, .inl (by decide)⟩
    · exact ⟨[[' ', '1', '5'], ['9', '9']], by decide +kernel, by decide, by decide⟩
    · exact ⟨[[' ', '0'], ['0'], quoted "Carrier".toList], by decide +kernel, by decide,
        by decide +kernel, by decide, by decide +kernel, by decide +kernel⟩
  have h := status_reports_modem plainConfig lostScript ⟨0, 0, 0, 0, 0⟩ List.prefix_rfl hr hc
  exact ⟨h.2.1, h.2.2.2.2⟩

end Modem
end GreenRelay
