/-
How the status snapshot of the modem is shown: the body of `GET /status`, and
the text of `/metrics`.

The response names the fields that it has no value for.  The metrics give a
gauge for the registration in any case and one for the signal where it is known.
A scraper looks for the line of a sample by its name (`sample`), and what it
finds in a rendered text is the value that was written (`sample_render`).
-/
import GreenRelay.Lib.Text
import GreenRelay.Modem.Protocol

namespace GreenRelay
namespace Api

open Text

/-! ## The status response -/

structure StatusResponse where
  signalPercent : Option Nat
  registered : Option Bool
  operator : Option String
  unavailable : List String
  deriving DecidableEq, Repr

def buildStatusResponse (snapshot : ModemStatusSnapshot) : StatusResponse :=
  let registered := if snapshot.responsive then some snapshot.registered else none
  { signalPercent := snapshot.signalPercent
    registered := registered
    operator := snapshot.operator
    unavailable := (if snapshot.signalPercent.isNone then ["signal"] else []) ++
      (if registered.isNone then ["registration"] else []) ++
      (if snapshot.operator.isNone then ["operator"] else []) }

theorem signal_unavailable (s : ModemStatusSnapshot) :
    "signal" ∈ (buildStatusResponse s).unavailable ↔ s.signalPercent = none := by
  cases h : s.signalPercent <;> simp [buildStatusResponse, h]

theorem registration_unavailable (s : ModemStatusSnapshot) :
    "registration" ∈ (buildStatusResponse s).unavailable ↔ s.responsive = false := by
  cases h : s.responsive <;> simp [buildStatusResponse, h]

theorem operator_unavailable (s : ModemStatusSnapshot) :
    "operator" ∈ (buildStatusResponse s).unavailable ↔ s.operator = none := by
  cases h : s.operator <;> simp [buildStatusResponse, h]

/-! ## Metrics -/

structure Metrics where
  authFailures : UInt64
  rateLimited : UInt64
  messagesAccepted : UInt64
  messagesSent : UInt64
  messagesFailed : UInt64
  deriving DecidableEq, Repr

def metricLines (name help kind : String) (value : Nat) : List String :=
  ["# HELP " ++ name ++ " " ++ help, "# TYPE " ++ name ++ " " ++ kind,
    name ++ " " ++ toString value]

def writeMetric (name help kind : String) (value : Nat) (out : String) : String :=
  (metricLines name help kind value).foldl (fun out line => out ++ line ++ "\n") out

def counter (name help : String) (value : Nat) (out : String) : String :=
  writeMetric name help "counter" value out

def gauge (name help : String) (value : Nat) (out : String) : String :=
  writeMetric name help "gauge" value out

/-- The signal gauge, where the signal is known. -/
def signalGauge (modem : ModemStatusSnapshot) (out : String) : String :=
  match modem.signalPercent with
  | some percent => gauge "green_relay_modem_signal_percent"
      "Modem signal strength as a percentage (0-100); absent when unknown." percent out
  | none => out

def Metrics.render (m : Metrics) (modem : ModemStatusSnapshot) : String :=
  let out := ""
  let out := counter "green_relay_auth_failures_total"
    "Authentication attempts rejected (invalid, unknown, or locked out)." m.authFailures.toNat out
  let out := counter "green_relay_rate_limited_total"
    "Requests rejected by the per-key rate limiter." m.rateLimited.toNat out
  let out := counter "green_relay_messages_accepted_total"
    "Outbound messages accepted and queued for delivery." m.messagesAccepted.toNat out
  let out := counter "green_relay_messages_sent_total"
    "Outbound messages confirmed sent by the modem." m.messagesSent.toNat out
  let out := counter "green_relay_messages_failed_total"
    "Outbound messages that failed delivery." m.messagesFailed.toNat out
  let out := gauge "green_relay_modem_serial_connected"
    "Whether the modem serial port is currently connected (1) or not (0)."
    modem.serialConnected.toNat out
  let out := gauge "green_relay_modem_registered"
    "Whether the modem is registered to a network (1) or not (0)." modem.registered.toNat out
  signalGauge modem out

/-! ## Reading a metrics text -/

/-- What the line of a sample begins with. -/
def sampleKey (name : String) : List Char := (name ++ " ").toList

/-- The value on the first line of a sample. -/
def sample (text : String) (name : String) : Option (List Char) :=
  (lines text.toList).findSome? (stripPrefix (sampleKey name))

/-- A text without line breaks. -/
def Plain (s : String) : Prop := s.toList.all (fun c => c ≠ '\n' && c ≠ '\r') = true

instance (s : String) : Decidable (Plain s) := inferInstanceAs (Decidable (_ = true))

theorem plain_iff {s : String} : Plain s ↔ ∀ c ∈ s.toList, c ≠ '\n' ∧ c ≠ '\r' := by
  simp [Plain, List.all_eq_true]

theorem Plain.append {s t : String} (hs : Plain s) (ht : Plain t) : Plain (s ++ t) := by
  rw [Plain, String.toList_append, List.all_append, hs, ht]
  rfl

theorem Plain.isLine {s : String} (h : Plain s) : IsLine s.toList :=
  ⟨fun hc => (plain_iff.mp h _ hc).1 rfl,
    fun hlast => (plain_iff.mp h _ (List.mem_of_getLast? hlast)).2 rfl⟩

theorem plain_toString (n : Nat) : Plain (toString n) := by
  rw [plain_iff]
  intro c hc
  have hdigit : c.isDigit = true := by
    apply isDigit_toDigits (n := n)
    rwa [← Nat.toList_repr]
  constructor <;> rintro rfl <;> exact absurd hdigit (by decide)

/-- Two texts that differ where both have a character. -/
def clash (p q : List Char) : Bool := (p.zip q).any (fun x => x.1 ≠ x.2)

theorem stripPrefix_clash {p q : List Char} (h : clash p q = true) (r : List Char) :
    stripPrefix p (q ++ r) = none := by
  induction p generalizing q with
  | nil => simp [clash] at h
  | cons c p ih =>
      cases q with
      | nil => simp [clash] at h
      | cons d q =>
          rw [List.cons_append, stripPrefix]
          by_cases hcd : c = d
          · rw [if_pos hcd]
            apply ih
            simpa [clash, hcd] using h
          · rw [if_neg hcd]

structure Metric where
  name : String
  help : String
  kind : String
  value : Nat

def Metric.lines (x : Metric) : List String := metricLines x.name x.help x.kind x.value

def Metric.write (out : String) (x : Metric) : String :=
  writeMetric x.name x.help x.kind x.value out

/-- The text of a metric keeps to its lines, and a scraper that looks for `wanted`
does not take another metric for it. -/
structure Metric.Legible (wanted : String) (x : Metric) : Prop where
  name : Plain x.name
  help : Plain x.help
  kind : Plain x.kind
  apart : x.name = wanted ∨ clash (sampleKey wanted) (sampleKey x.name) = true

/-- A text that ends with the last of these lines. -/
def Written (text : String) (ls : List (List Char)) : Prop :=
  ∀ rest, Text.lines (text.toList ++ rest) = ls ++ Text.lines rest

theorem Written.lines_eq {text : String} {ls : List (List Char)} (h : Written text ls) :
    Text.lines text.toList = ls := by
  have hnil := h []
  rwa [List.append_nil, show Text.lines [] = [] from rfl, List.append_nil] at hnil

theorem Written.writeln {text : String} {ls : List (List Char)} (h : Written text ls)
    {line : String} (hline : Plain line) :
    Written (text ++ line ++ "\n") (ls ++ [line.toList]) := by
  intro rest
  have happend : (text ++ line ++ "\n").toList ++ rest
      = text.toList ++ (line.toList ++ '\n' :: rest) := by
    simp [String.toList_append]
  rw [happend, h, lines_append hline.isLine, List.append_assoc]
  rfl

theorem Written.foldl_writeln {new : List String} (hnew : ∀ line ∈ new, Plain line) {text : String}
    {ls : List (List Char)} (h : Written text ls) :
    Written (new.foldl (fun out line => out ++ line ++ "\n") text)
      (ls ++ new.map String.toList) := by
  induction new generalizing text ls with
  | nil =>
      rw [List.map_nil, List.append_nil]
      exact h
  | cons line new ih =>
      have hwritten := ih (fun l hl => hnew l (List.mem_cons_of_mem line hl))
        (h.writeln (hnew line (List.mem_cons_self ..)))
      rw [List.append_assoc] at hwritten
      exact hwritten

theorem Metric.Legible.plain {wanted : String} {x : Metric} (h : x.Legible wanted) :
    ∀ line ∈ x.lines, Plain line := by
  intro line hline
  have hspace : Plain " " := by decide +kernel
  simp only [Metric.lines, metricLines, List.mem_cons, List.not_mem_nil, or_false] at hline
  rcases hline with rfl | rfl | rfl
  · exact (((show Plain "# HELP " by decide +kernel).append h.name).append hspace).append h.help
  · exact (((show Plain "# TYPE " by decide +kernel).append h.name).append hspace).append h.kind
  · exact (h.name.append hspace).append (plain_toString x.value)

theorem Written.writeAll {wanted : String} {ms : List Metric} (hms : ∀ x ∈ ms, x.Legible wanted)
    {text : String} {ls : List (List Char)} (h : Written text ls) :
    Written (ms.foldl Metric.write text) (ls ++ (ms.flatMap Metric.lines).map String.toList) := by
  induction ms generalizing text ls with
  | nil =>
      rw [List.flatMap_nil, List.map_nil, List.append_nil]
      exact h
  | cons x ms ih =>
      have hx : Written (x.write text) (ls ++ x.lines.map String.toList) :=
        h.foldl_writeln (hms x (List.mem_cons_self ..)).plain
      have hwritten := ih (fun y hy => hms y (List.mem_cons_of_mem x hy)) hx
      rw [List.append_assoc, ← List.map_append] at hwritten
      exact hwritten

theorem stripPrefix_comment {key : List Char} (hcomment : clash key ['#'] = true) (text : String) :
    stripPrefix key ("# " ++ text).toList = none := by
  have hhash : "# ".toList = ['#'] ++ [' '] := by decide +kernel
  rw [String.toList_append, hhash, List.append_assoc]
  exact stripPrefix_clash hcomment _

/-- A scraper looks for a name that is no comment. -/
theorem find_metric {wanted : String} (hcomment : clash (sampleKey wanted) ['#'] = true)
    {x : Metric} (h : x.Legible wanted) :
    (x.lines.map String.toList).findSome? (stripPrefix (sampleKey wanted))
      = if x.name = wanted then some (toString x.value).toList else none := by
  have hhelp : stripPrefix (sampleKey wanted) ("# HELP " ++ x.name ++ " " ++ x.help).toList
      = none := by
    rw [show "# HELP " = "# " ++ "HELP " from rfl, String.append_assoc, String.append_assoc,
      String.append_assoc]
    exact stripPrefix_comment hcomment _
  have htype : stripPrefix (sampleKey wanted) ("# TYPE " ++ x.name ++ " " ++ x.kind).toList
      = none := by
    rw [show "# TYPE " = "# " ++ "TYPE " from rfl, String.append_assoc, String.append_assoc,
      String.append_assoc]
    exact stripPrefix_comment hcomment _
  have hline : (x.name ++ " " ++ toString x.value).toList
      = sampleKey x.name ++ (toString x.value).toList := String.toList_append
  rw [Metric.lines, metricLines, List.map_cons, List.map_cons, List.map_cons, List.map_nil,
    List.findSome?_cons, hhelp, List.findSome?_cons, htype, List.findSome?_cons,
    List.findSome?_nil, hline]
  by_cases hname : x.name = wanted
  · rw [hname, stripPrefix_eq_some.mpr rfl, if_pos rfl]
  · rw [stripPrefix_clash (h.apart.resolve_left hname), if_neg hname]

/-- What a scraper finds in a text is the first metric of the name. -/
theorem sample_writeAll {wanted : String} (hcomment : clash (sampleKey wanted) ['#'] = true)
    {ms : List Metric} (hms : ∀ x ∈ ms, x.Legible wanted) :
    sample (ms.foldl Metric.write "") wanted
      = ms.findSome? (fun x => if x.name = wanted then some (toString x.value).toList
          else none) := by
  have hempty : Written "" [] := fun _ => rfl
  rw [sample, (hempty.writeAll hms).lines_eq, List.nil_append]
  clear hempty
  induction ms with
  | nil => rfl
  | cons x ms ih =>
      rw [List.flatMap_cons, List.map_append, List.findSome?_append,
        find_metric hcomment (hms x (List.mem_cons_self ..)),
        ih (fun y hy => hms y (List.mem_cons_of_mem x hy)), List.findSome?_cons]
      split
      · rfl
      · rfl

/-! ## What a rendered text tells -/

def metricLabels : List (String × String × String) :=
  [("green_relay_auth_failures_total",
      "Authentication attempts rejected (invalid, unknown, or locked out).", "counter"),
    ("green_relay_rate_limited_total", "Requests rejected by the per-key rate limiter.", "counter"),
    ("green_relay_messages_accepted_total", "Outbound messages accepted and queued for delivery.",
      "counter"),
    ("green_relay_messages_sent_total", "Outbound messages confirmed sent by the modem.",
      "counter"),
    ("green_relay_messages_failed_total", "Outbound messages that failed delivery.", "counter"),
    ("green_relay_modem_serial_connected",
      "Whether the modem serial port is currently connected (1) or not (0).", "gauge"),
    ("green_relay_modem_registered",
      "Whether the modem is registered to a network (1) or not (0).", "gauge"),
    ("green_relay_modem_signal_percent",
      "Modem signal strength as a percentage (0-100); absent when unknown.", "gauge")]

def Metrics.values (m : Metrics) (modem : ModemStatusSnapshot) : List Nat :=
  [m.authFailures.toNat, m.rateLimited.toNat, m.messagesAccepted.toNat, m.messagesSent.toNat,
    m.messagesFailed.toNat, modem.serialConnected.toNat, modem.registered.toNat] ++
    modem.signalPercent.toList

def Metrics.metrics (m : Metrics) (modem : ModemStatusSnapshot) : List Metric :=
  (metricLabels.zip (m.values modem)).map fun (label, value) =>
    ⟨label.1, label.2.1, label.2.2, value⟩

theorem render_eq (m : Metrics) (modem : ModemStatusSnapshot) :
    m.render modem = (m.metrics modem).foldl Metric.write "" := by
  rw [Metrics.render, signalGauge, Metrics.metrics, Metrics.values]
  cases modem.signalPercent <;> rfl

theorem plain_labels : metricLabels.all
    (fun label => decide (Plain label.1 ∧ Plain label.2.1 ∧ Plain label.2.2)) = true := by
  decide +kernel

/-- The metrics whose names are not the one wanted are told from it. -/
def toldApart (wanted : String) : Bool :=
  metricLabels.all fun label =>
    label.1 = wanted || clash (sampleKey wanted) (sampleKey label.1)

theorem legible_metrics {wanted : String} (hwanted : toldApart wanted = true) (m : Metrics)
    (modem : ModemStatusSnapshot) : ∀ x ∈ m.metrics modem, x.Legible wanted := by
  intro x hx
  obtain ⟨⟨label, value⟩, hmem, rfl⟩ := List.mem_map.mp hx
  have hlabel := (List.of_mem_zip hmem).1
  have hplain := List.all_eq_true.mp plain_labels label hlabel
  obtain ⟨hname, hhelp, hkind⟩ := of_decide_eq_true hplain
  have hapart := List.all_eq_true.mp hwanted label hlabel
  rw [Bool.or_eq_true, decide_eq_true_iff] at hapart
  exact ⟨hname, hhelp, hkind, hapart⟩

theorem sample_registered (m : Metrics) (modem : ModemStatusSnapshot) :
    sample (m.render modem) "green_relay_modem_registered"
      = some (toString modem.registered.toNat).toList := by
  rw [render_eq, sample_writeAll (by decide +kernel) (legible_metrics (by decide +kernel) m modem)]
  rfl

theorem sample_signal (m : Metrics) (modem : ModemStatusSnapshot) :
    sample (m.render modem) "green_relay_modem_signal_percent"
      = modem.signalPercent.map (fun percent => (toString percent).toList) := by
  rw [render_eq, sample_writeAll (by decide +kernel) (legible_metrics (by decide +kernel) m modem),
    Metrics.metrics, Metrics.values]
  cases modem.signalPercent <;> rfl

end Api
end GreenRelay
