/-
The pages of the admin portal, and what a browser makes of them.

The renderers paste texts into templates, each through `esc`.  `keysTree` and
`dashboardTree` are the documents that are meant, with the same texts in their
places as they are.  Reading a page gives its tree as it is received
(`parse_renderKeys`, `parse_renderDashboard`), so no text adds an element or takes
one away.  `esc` leaves carriage returns and null characters in the page, and no
reader receives these as they are; every other text is recovered.
-/
import GreenRelay.Admin.Dashboard
import GreenRelay.Lib.Markup

namespace GreenRelay
namespace Admin
namespace Pages

open Markup (Forest Tag IsName voids escape eq_toList)
open Storage (Chrono)

/-! ## Rendering -/

def esc (s : String) : String :=
  String.ofList (Text.replace '"' "&quot;".toList (Text.replace '>' "&gt;".toList
    (Text.replace '<' "&lt;".toList (Text.replace '&' "&amp;".toList s.toList))))

def healthLabel : ServiceHealth → String
  | .healthy => "online"
  | .degraded => "degraded"
  | .unhealthy => "offline / error"

def csrfInput (csrf : String) : String :=
  "<input type=\"hidden\" name=\"csrf_token\" value=\"" ++ esc csrf ++ "\">"

def signalLabel : Option Nat → String
  | some p => toString p ++ "%"
  | none => "unavailable"

def activityItem (chrono : Chrono) (e : Dashboard.ActivityEntry) : String :=
  "<li>" ++ esc (String.ofList (chrono.toRfc3339 e.timestamp)) ++ " — " ++ esc e.description ++
    "</li>"

def activityList (chrono : Chrono) (recent : List Dashboard.ActivityEntry) : String :=
  if recent.isEmpty then "<li>No recent activity.</li>"
  else String.join (recent.map (activityItem chrono))

def renderDashboard (chrono : Chrono) (data : Dashboard.DashboardData) (csrf : String) : String :=
  "<!DOCTYPE html><html><head><title>Admin Dashboard</title></head><body>" ++
    "<h1>Dashboard</h1>" ++
    "<p>Modem health: <strong>" ++ healthLabel data.health ++ "</strong></p>" ++
    "<p>Signal quality: <strong>" ++ signalLabel data.signalPercent ++ "</strong></p>" ++
    "<h2>Recent activity (last 24h)</h2><ul>" ++ activityList chrono data.recent ++ "</ul>" ++
    "<p><a href=\"/admin/keys\">Manage API keys</a></p>" ++
    "<form method=\"post\" action=\"/admin/logout\">" ++ csrfInput csrf ++
    "<button type=\"submit\">Sign out</button></form>" ++
    "</body></html>"

def newKeyBanner : Option String → String
  | some key =>
    "<p class=\"new-key\">New API key (copy it now, it will not be shown again): <code>" ++
      esc key ++ "</code></p>"
  | none => ""

def revokeCell (csrf : String) (k : ApiKeyView) : String :=
  if k.revoked then "revoked"
  else "<form method=\"post\" action=\"/admin/keys/" ++ toString k.id ++ "/revoke\">" ++
    csrfInput csrf ++ "<button type=\"submit\">Revoke</button></form>"

def keyRow (csrf : String) (k : ApiKeyView) : String :=
  "<tr><td>" ++ toString k.id ++ "</td><td><code>" ++ esc k.keyIdentifier ++ "</code></td><td>" ++
    esc k.createdAt ++ "</td><td>" ++ revokeCell csrf k ++ "</td></tr>"

def keyRows (csrf : String) (keys : List ApiKeyView) : String :=
  if keys.isEmpty then "<tr><td colspan=\"4\">No API keys.</td></tr>"
  else String.join (keys.map (keyRow csrf))

def renderKeys (keys : List ApiKeyView) (newKey : Option String) (csrf : String) : String :=
  "<!DOCTYPE html><html><head><title>API Keys</title></head><body>" ++
    "<h1>API Keys</h1>" ++ newKeyBanner newKey ++
    "<form method=\"post\" action=\"/admin/keys\">" ++ csrfInput csrf ++
    "<button type=\"submit\">Create new key</button></form>" ++
    "<table><thead><tr><th>ID</th><th>Identifier</th><th>Created</th>" ++
    "<th>Action</th></tr></thead>" ++
    "<tbody>" ++ keyRows csrf keys ++ "</tbody></table>" ++
    "<p><a href=\"/admin\">Back to dashboard</a></p>" ++
    "</body></html>"

/-! ## The documents that are meant -/

def csrfField (csrf : String) (rest : Forest) : Forest :=
  .void "" "input" [("type", "hidden"), ("name", "csrf_token"), ("value", csrf)] rest

def postForm (action csrf label : String) (rest : Forest) : Forest :=
  .element "" "form" [("method", "post"), ("action", action)]
    (csrfField csrf (.element "" "button" [("type", "submit")] (.text label) (.text ""))) rest

/-- An element that holds only a text. -/
def leaf (name text : String) (rest : Forest) : Forest := .element "" name [] (.text text) rest

def link (href text : String) (rest : Forest) : Forest :=
  .element "" "p" [] (.element "" "a" [("href", href)] (.text text) (.text "")) rest

def page (title : String) (body : Forest) : Forest :=
  .element "" "html" []
    (.element "" "head" [] (leaf "title" title (.text "")) (.element "" "body" [] body (.text "")))
    (.text "")

/-- A paragraph that ends in an element with a text. -/
def labelled (attrs : List (String × String)) (label name text : String) (rest : Forest) : Forest :=
  .element "" "p" attrs (.element label name [] (.text text) (.text "")) rest

def activityTree (chrono : Chrono) (recent : List Dashboard.ActivityEntry) : Forest :=
  if recent.isEmpty then leaf "li" "No recent activity." (.text "")
  else recent.foldr (fun e rest =>
    leaf "li" (String.ofList (chrono.toRfc3339 e.timestamp) ++ " — " ++ e.description) rest)
    (.text "")

def dashboardTree (chrono : Chrono) (data : Dashboard.DashboardData) (csrf : String) : Forest :=
  page "Admin Dashboard"
    (leaf "h1" "Dashboard"
    (labelled [] "Modem health: " "strong" (healthLabel data.health)
    (labelled [] "Signal quality: " "strong" (signalLabel data.signalPercent)
    (leaf "h2" "Recent activity (last 24h)"
    (.element "" "ul" [] (activityTree chrono data.recent)
    (link "/admin/keys" "Manage API keys"
    (postForm "/admin/logout" csrf "Sign out" (.text ""))))))))

def newKeyTree (newKey : Option String) (rest : Forest) : Forest :=
  match newKey with
  | some key =>
    labelled [("class", "new-key")] "New API key (copy it now, it will not be shown again): "
      "code" key rest
  | none => rest

def revokeTree (csrf : String) (k : ApiKeyView) : Forest :=
  if k.revoked then .text "revoked"
  else postForm ("/admin/keys/" ++ toString k.id ++ "/revoke") csrf "Revoke" (.text "")

def keyTree (csrf : String) (k : ApiKeyView) (rest : Forest) : Forest :=
  .element "" "tr" []
    (leaf "td" (toString k.id)
    (.element "" "td" [] (leaf "code" k.keyIdentifier (.text ""))
    (leaf "td" k.createdAt
    (.element "" "td" [] (revokeTree csrf k) (.text ""))))) rest

def rowsTree (csrf : String) (keys : List ApiKeyView) : Forest :=
  if keys.isEmpty then
    .element "" "tr" [] (.element "" "td" [("colspan", "4")] (.text "No API keys.") (.text ""))
      (.text "")
  else keys.foldr (keyTree csrf) (.text "")

def keysTree (keys : List ApiKeyView) (newKey : Option String) (csrf : String) : Forest :=
  page "API Keys"
    (leaf "h1" "API Keys"
    (newKeyTree newKey
    (postForm "/admin/keys" csrf "Create new key"
    (.element "" "table" []
      (.element "" "thead" []
        (.element "" "tr" []
          (leaf "th" "ID" (leaf "th" "Identifier" (leaf "th" "Created" (leaf "th" "Action"
            (.text "")))))
          (.text ""))
        (.element "" "tbody" [] (rowsTree csrf keys) (.text "")))
    (link "/admin" "Back to dashboard" (.text ""))))))

/-! ## The pages are the documents, written out -/

/-- An `&` that is written for another character is not replaced again. -/
theorem replaced_char (c : Char) :
    Text.replace '"' "&quot;".toList (Text.replace '>' "&gt;".toList (Text.replace '<' "&lt;".toList
      (Text.replace '&' "&amp;".toList [c]))) = Markup.escapeChar c := by
  unfold Markup.escapeChar
  split_ifs with hamp hlt hgt hquot
  · subst hamp; decide
  · subst hlt; decide
  · subst hgt; decide
  · subst hquot; decide
  · simp only [Text.replace, List.flatMap_cons, List.flatMap_nil, List.append_nil, if_neg hamp,
      if_neg hlt, if_neg hgt, if_neg hquot]

theorem toList_esc (s : String) : (esc s).toList = escape s.toList := by
  rw [esc, String.toList_ofList]
  induction s.toList with
  | nil => rfl
  | cons c cs ih =>
    show _ = Markup.escapeChar c ++ escape cs
    rw [← ih, ← replaced_char]
    simp only [Text.replace, List.flatMap_cons, List.flatMap_append, List.flatMap_nil,
      List.append_nil]

-- The templates are opened by `unfold`, as their equation lemmas are slow to derive.

theorem csrfField_write (csrf : String) (rest : Forest) :
    (csrfField csrf rest).write = (csrfInput csrf).toList ++ rest.write := by
  have hopen : Markup.startUpTo "input" [("type", "hidden"), ("name", "csrf_token")] "value" =
      "<input type=\"hidden\" name=\"csrf_token\" value=\"".toList := eq_toList rfl
  have hclose : "\">".toList = ['"', '>'] := rfl
  have htag : (Tag.start "input"
      [("type", "hidden"), ("name", "csrf_token"), ("value", csrf)]).write =
      Markup.startUpTo "input" [("type", "hidden"), ("name", "csrf_token")] "value" ++
        (escape csrf.toList ++ ['"', '>']) :=
    Markup.write_start_concat "input" [("type", "hidden"), ("name", "csrf_token")] "value" csrf
  unfold csrfField csrfInput
  rw [Markup.write_void, htag, hopen, String.toList_append, String.toList_append, toList_esc,
    hclose]
  simp only [List.append_assoc]

/-- A form that posts, up to its action, and from its label on. -/
theorem postForm_write (action csrf label : String) (rest : Forest) :
    (postForm action csrf label rest).write =
      "<form method=\"post\" action=\"".toList ++ (escape action.toList ++ ("\">".toList ++
        ((csrfInput csrf).toList ++ ("<button type=\"submit\">".toList ++
          (escape label.toList ++ ("</button></form>".toList ++ rest.write)))))) := by
  have hopen : Markup.startUpTo "form" [("method", "post")] "action" =
      "<form method=\"post\" action=\"".toList := eq_toList rfl
  have hclose : "\">".toList = ['"', '>'] := rfl
  have hbutton : (Tag.start "button" [("type", "submit")]).write =
      "<button type=\"submit\">".toList := eq_toList rfl
  have hend : (Tag.close "button").write ++ (Tag.close "form").write =
      "</button></form>".toList := eq_toList rfl
  have htag : (Tag.start "form" [("method", "post"), ("action", action)]).write =
      Markup.startUpTo "form" [("method", "post")] "action" ++
        (escape action.toList ++ ['"', '>']) :=
    Markup.write_start_concat "form" [("method", "post")] "action" action
  unfold postForm
  rw [Markup.write_element, csrfField_write, Markup.write_element, htag, hopen, hbutton, hclose,
    ← hend]
  simp only [Markup.write_text, Markup.escape_empty, List.nil_append, List.append_assoc]

theorem leaf_write (name text : String) (rest : Forest) :
    (leaf name text rest).write = (Tag.start name []).write ++
      (escape text.toList ++ ((Tag.close name).write ++ rest.write)) := by
  rw [leaf, Markup.write_element, Markup.write_text]

theorem labelled_write (attrs : List (String × String)) (label name text : String) (rest : Forest) :
    (labelled attrs label name text rest).write =
      (Tag.start "p" attrs).write ++ (escape label.toList ++ ((Tag.start name []).write ++
        (escape text.toList ++ ((Tag.close name).write ++
          ((Tag.close "p").write ++ rest.write))))) := by
  unfold labelled
  rw [Markup.write_element, Forest.write]
  simp only [Markup.write_text, Markup.escape_empty, List.nil_append, List.append_assoc]

theorem newKeyTree_write (newKey : Option String) (rest : Forest) :
    (newKeyTree newKey rest).write = (newKeyBanner newKey).toList ++ rest.write := by
  have hopen : (Tag.start "p" [("class", "new-key")]).write ++
      (escape "New API key (copy it now, it will not be shown again): ".toList ++
        (Tag.start "code" []).write) =
      "<p class=\"new-key\">New API key (copy it now, it will not be shown again): <code>".toList :=
    eq_toList rfl
  have hend : (Tag.close "code").write ++ (Tag.close "p").write = "</code></p>".toList :=
    eq_toList rfl
  cases newKey with
  | none => rfl
  | some key =>
    unfold newKeyTree newKeyBanner
    simp only [labelled_write, String.toList_append, toList_esc, ← hopen, ← hend, List.append_assoc]

theorem escape_toString (n : Nat) : escape (toString n).toList = (toString n).toList := by
  refine Markup.escape_plain (fun c hc => ?_)
  rw [Nat.toString_eq_ofList_toDigits, String.toList_ofList] at hc
  have hdigit := Text.isDigit_toDigits hc
  intro hmem
  have hall : ['&', '<', '>', '"'].all (fun c => !c.isDigit) = true := by decide
  have hnot := List.all_eq_true.mp hall c hmem
  rw [hdigit] at hnot
  exact absurd hnot (by decide)

theorem revokeTree_write (csrf : String) (k : ApiKeyView) :
    (revokeTree csrf k).write = (revokeCell csrf k).toList := by
  have hrevoked : escape "revoked".toList = "revoked".toList := eq_toList rfl
  have hopen : "<form method=\"post\" action=\"".toList ++ escape "/admin/keys/".toList =
      "<form method=\"post\" action=\"/admin/keys/".toList := eq_toList rfl
  have haction : escape "/revoke".toList ++ "\">".toList = "/revoke\">".toList :=
    eq_toList rfl
  have hlabel : "<button type=\"submit\">".toList ++ (escape "Revoke".toList ++
      "</button></form>".toList) = "<button type=\"submit\">Revoke</button></form>".toList :=
    eq_toList rfl
  unfold revokeTree revokeCell
  by_cases hr : k.revoked = true
  · rw [if_pos hr, if_pos hr]
    exact hrevoked
  · rw [if_neg hr, if_neg hr, postForm_write]
    simp only [String.toList_append, Markup.escape_append, escape_toString, ← hopen, ← haction,
      ← hlabel, Markup.write_text, Markup.escape_empty, List.append_nil, List.append_assoc]

theorem keyTree_write (csrf : String) (k : ApiKeyView) (rest : Forest) :
    (keyTree csrf k rest).write = (keyRow csrf k).toList ++ rest.write := by
  have hid : (Tag.start "tr" []).write ++ (Tag.start "td" []).write = "<tr><td>".toList :=
    eq_toList rfl
  have hkey : (Tag.close "td").write ++ ((Tag.start "td" []).write ++ (Tag.start "code" []).write) =
      "</td><td><code>".toList := eq_toList rfl
  have hcreated : (Tag.close "code").write ++
      ((Tag.close "td").write ++ (Tag.start "td" []).write) = "</code></td><td>".toList :=
    eq_toList rfl
  have haction : (Tag.close "td").write ++ (Tag.start "td" []).write = "</td><td>".toList :=
    eq_toList rfl
  have hend : (Tag.close "td").write ++ (Tag.close "tr").write = "</td></tr>".toList :=
    eq_toList rfl
  unfold keyTree keyRow
  simp only [Markup.write_element, leaf_write, revokeTree_write, escape_toString, Markup.write_text,
    Markup.escape_empty, List.nil_append, String.toList_append, toList_esc, ← hid, ← hkey,
    ← hcreated, ← haction, ← hend, List.append_assoc]

/-- Elements that are written one after the other. -/
theorem foldr_write {α : Type} {tree : α → Forest → Forest} {render : α → String}
    (h : ∀ a rest, (tree a rest).write = (render a).toList ++ rest.write) (as : List α) :
    (as.foldr tree (.text "")).write = (String.join (as.map render)).toList := by
  rw [String.toList_join]
  induction as with
  | nil => rfl
  | cons a as ih => rw [List.foldr_cons, h, ih, List.map_cons, List.flatMap_cons]

theorem rowsTree_write (csrf : String) (keys : List ApiKeyView) :
    (rowsTree csrf keys).write = (keyRows csrf keys).toList := by
  have hempty : (Tag.start "tr" []).write ++ ((Tag.start "td" [("colspan", "4")]).write ++
      (escape "No API keys.".toList ++ ((Tag.close "td").write ++ (Tag.close "tr").write))) =
      "<tr><td colspan=\"4\">No API keys.</td></tr>".toList := eq_toList rfl
  unfold rowsTree keyRows
  by_cases hkeys : keys.isEmpty = true
  · rw [if_pos hkeys, if_pos hkeys, ← hempty]
    simp only [Markup.write_element, Markup.write_text, Markup.escape_empty, List.append_nil,
      List.append_assoc]
  · rw [if_neg hkeys, if_neg hkeys]
    exact foldr_write (keyTree_write csrf) keys

theorem activityTree_write (chrono : Chrono) (recent : List Dashboard.ActivityEntry) :
    (activityTree chrono recent).write = (activityList chrono recent).toList := by
  have hopen : (Tag.start "li" []).write = "<li>".toList := eq_toList rfl
  have hend : (Tag.close "li").write = "</li>".toList := eq_toList rfl
  have hdash : escape " — ".toList = " — ".toList := eq_toList rfl
  have hempty : "<li>".toList ++ (escape "No recent activity.".toList ++ "</li>".toList) =
      "<li>No recent activity.</li>".toList := eq_toList rfl
  unfold activityTree activityList
  by_cases hrecent : recent.isEmpty = true
  · rw [if_pos hrecent, if_pos hrecent, ← hempty, leaf_write, hopen, hend]
    simp only [Markup.write_text, Markup.escape_empty, List.append_nil]
  · rw [if_neg hrecent, if_neg hrecent]
    refine foldr_write (fun e rest => ?_) recent
    unfold activityItem
    simp only [leaf_write, hopen, hend, String.toList_append, toList_esc, Markup.escape_append,
      hdash, List.append_assoc]

/-- A page up to the contents of its body. -/
def pageHead (title : String) : List Char :=
  (Tag.start "html" []).write ++ ((Tag.start "head" []).write ++ ((Tag.start "title" []).write ++
    (escape title.toList ++ ((Tag.close "title").write ++ ((Tag.close "head").write ++
      (Tag.start "body" []).write)))))

theorem page_write (title : String) (body : Forest) :
    (page title body).write = pageHead title ++ (body.write ++ "</body></html>".toList) := by
  have hend : (Tag.close "body").write ++ (Tag.close "html").write = "</body></html>".toList :=
    eq_toList rfl
  unfold page pageHead
  simp only [Markup.write_element, leaf_write, Markup.write_text, Markup.escape_empty,
    List.append_nil, List.append_assoc, hend]

theorem renderKeys_write (keys : List ApiKeyView) (newKey : Option String) (csrf : String) :
    (renderKeys keys newKey csrf).toList = Markup.doctype ++ (keysTree keys newKey csrf).write := by
  have hhead : Markup.doctype ++ pageHead "API Keys" =
      "<!DOCTYPE html><html><head><title>API Keys</title></head><body>".toList :=
    eq_toList rfl
  have htitle : (Tag.start "h1" []).write ++ (escape "API Keys".toList ++ (Tag.close "h1").write) =
      "<h1>API Keys</h1>".toList := eq_toList rfl
  have haction : "<form method=\"post\" action=\"".toList ++ (escape "/admin/keys".toList ++
      "\">".toList) = "<form method=\"post\" action=\"/admin/keys\">".toList :=
    eq_toList rfl
  have hlabel : "<button type=\"submit\">".toList ++ (escape "Create new key".toList ++
      "</button></form>".toList) =
      "<button type=\"submit\">Create new key</button></form>".toList :=
    eq_toList rfl
  have hcolumns : (Tag.start "table" []).write ++ ((Tag.start "thead" []).write ++
      ((Tag.start "tr" []).write ++ ((Tag.start "th" []).write ++ (escape "ID".toList ++
        ((Tag.close "th").write ++ ((Tag.start "th" []).write ++ (escape "Identifier".toList ++
          ((Tag.close "th").write ++ ((Tag.start "th" []).write ++ (escape "Created".toList ++
            (Tag.close "th").write)))))))))) =
      "<table><thead><tr><th>ID</th><th>Identifier</th><th>Created</th>".toList :=
    eq_toList rfl
  have hcolumn : (Tag.start "th" []).write ++ (escape "Action".toList ++ ((Tag.close "th").write ++
      ((Tag.close "tr").write ++ (Tag.close "thead").write))) =
      "<th>Action</th></tr></thead>".toList := eq_toList rfl
  have hbody : (Tag.start "tbody" []).write = "<tbody>".toList := eq_toList rfl
  have hend : (Tag.close "tbody").write ++ (Tag.close "table").write =
      "</tbody></table>".toList := eq_toList rfl
  have hlink : (Tag.start "p" []).write ++ ((Tag.start "a" [("href", "/admin")]).write ++
      (escape "Back to dashboard".toList ++ ((Tag.close "a").write ++ (Tag.close "p").write))) =
      "<p><a href=\"/admin\">Back to dashboard</a></p>".toList := eq_toList rfl
  unfold renderKeys keysTree link
  simp only [page_write, leaf_write, newKeyTree_write, postForm_write, rowsTree_write,
    Markup.write_element, Markup.write_text, Markup.escape_empty, List.nil_append,
    String.toList_append, ← hhead, ← htitle, ← haction, ← hlabel, ← hcolumns, ← hcolumn, ← hbody,
    ← hend, ← hlink, List.append_assoc]

theorem escape_healthLabel (h : ServiceHealth) :
    escape (healthLabel h).toList = (healthLabel h).toList := by
  cases h with
  | healthy => exact eq_toList rfl
  | degraded => exact eq_toList rfl
  | unhealthy => exact eq_toList rfl

theorem escape_signalLabel (p : Option Nat) :
    escape (signalLabel p).toList = (signalLabel p).toList := by
  have hpercent : escape "%".toList = "%".toList := eq_toList rfl
  have hnone : escape "unavailable".toList = "unavailable".toList :=
    eq_toList rfl
  cases p with
  | none => exact hnone
  | some p =>
    unfold signalLabel
    rw [String.toList_append, Markup.escape_append, escape_toString, hpercent]

theorem renderDashboard_write (chrono : Chrono) (data : Dashboard.DashboardData) (csrf : String) :
    (renderDashboard chrono data csrf).toList =
      Markup.doctype ++ (dashboardTree chrono data csrf).write := by
  have hhead : Markup.doctype ++ pageHead "Admin Dashboard" =
      "<!DOCTYPE html><html><head><title>Admin Dashboard</title></head><body>".toList :=
    eq_toList rfl
  have htitle : (Tag.start "h1" []).write ++ (escape "Dashboard".toList ++
      (Tag.close "h1").write) = "<h1>Dashboard</h1>".toList := eq_toList rfl
  have hhealth : (Tag.start "p" []).write ++ (escape "Modem health: ".toList ++
      (Tag.start "strong" []).write) = "<p>Modem health: <strong>".toList :=
    eq_toList rfl
  have hsignal : (Tag.start "p" []).write ++ (escape "Signal quality: ".toList ++
      (Tag.start "strong" []).write) = "<p>Signal quality: <strong>".toList :=
    eq_toList rfl
  have hstrong : (Tag.close "strong").write ++ (Tag.close "p").write =
      "</strong></p>".toList := eq_toList rfl
  have hrecent : (Tag.start "h2" []).write ++ (escape "Recent activity (last 24h)".toList ++
      ((Tag.close "h2").write ++ (Tag.start "ul" []).write)) =
      "<h2>Recent activity (last 24h)</h2><ul>".toList := eq_toList rfl
  have hend : (Tag.close "ul").write = "</ul>".toList := eq_toList rfl
  have hlink : (Tag.start "p" []).write ++ ((Tag.start "a" [("href", "/admin/keys")]).write ++
      (escape "Manage API keys".toList ++ ((Tag.close "a").write ++ (Tag.close "p").write))) =
      "<p><a href=\"/admin/keys\">Manage API keys</a></p>".toList := eq_toList rfl
  have haction : "<form method=\"post\" action=\"".toList ++ (escape "/admin/logout".toList ++
      "\">".toList) = "<form method=\"post\" action=\"/admin/logout\">".toList :=
    eq_toList rfl
  have hlabel : "<button type=\"submit\">".toList ++ (escape "Sign out".toList ++
      "</button></form>".toList) = "<button type=\"submit\">Sign out</button></form>".toList :=
    eq_toList rfl
  unfold renderDashboard dashboardTree link
  simp only [page_write, leaf_write, labelled_write, postForm_write, activityTree_write,
    escape_healthLabel, escape_signalLabel, Markup.write_element, Markup.write_text,
    Markup.escape_empty, List.nil_append, String.toList_append, ← hhead, ← htitle, ← hhealth,
    ← hsignal, ← hstrong, ← hrecent, ← hend, ← hlink, ← haction, ← hlabel, List.append_assoc]

/-! ## The documents can be read -/

theorem text_proper (s : String) : (Forest.text s).Proper := trivial

/-- An element without attributes. -/
theorem bare_proper (before name : String) {children rest : Forest}
    (hname : IsName name ∧ name ∉ voids) (hchildren : children.Proper)
    (hrest : rest.Proper) : (Forest.element before name [] children rest).Proper :=
  .element hname (fun _ h => absurd h List.not_mem_nil) hchildren hrest

theorem leaf_proper (name : String) (hname : IsName name ∧ name ∉ voids)
    (text : String) {rest : Forest} (hrest : rest.Proper) : (leaf name text rest).Proper :=
  bare_proper "" name hname (text_proper text) hrest

theorem postForm_proper (action csrf label : String) {rest : Forest} (hrest : rest.Proper) :
    (postForm action csrf label rest).Proper := by
  have hfield : ∀ n ∈ ["type", "name", "value"], IsName n := by decide
  have hform : ∀ n ∈ ["method", "action"], IsName n := by decide
  have hbutton : (Forest.element "" "button" [("type", "submit")] (.text label)
      (.text "")).Proper := .element (by decide) (by decide) (text_proper label) (text_proper "")
  have hinput : (csrfField csrf
      (.element "" "button" [("type", "submit")] (.text label) (.text ""))).Proper :=
    ⟨⟨by decide, fun a ha => hfield a.1 (List.mem_map_of_mem (f := Prod.fst) ha)⟩,
      by decide, hbutton⟩
  exact .element (by decide) hform hinput hrest

theorem labelled_proper (attrs : List (String × String))
    (hattrs : ∀ n ∈ attrs.map Prod.fst, IsName n) (label : String) {name : String}
    (hname : IsName name ∧ name ∉ voids) (text : String) {rest : Forest}
    (hrest : rest.Proper) : (labelled attrs label name text rest).Proper :=
  .element (by decide) hattrs (bare_proper _ _ hname (text_proper text) (text_proper "")) hrest

theorem link_proper (href text : String) {rest : Forest} (hrest : rest.Proper) :
    (link href text rest).Proper := by
  have hattrs : ∀ n ∈ ["href"], IsName n := by decide
  exact bare_proper _ _ (by decide)
    (.element (by decide) hattrs (text_proper text) (text_proper "")) hrest

theorem page_proper (title : String) {body : Forest} (hbody : body.Proper) :
    (page title body).Proper := by
  have htitle := leaf_proper "title" (by decide) title (text_proper "")
  exact bare_proper _ _ (by decide) (bare_proper _ _ (by decide) htitle
    (bare_proper _ _ (by decide) hbody (text_proper ""))) (text_proper "")

theorem foldr_proper {α : Type} {tree : α → Forest → Forest}
    (h : ∀ a {rest : Forest}, rest.Proper → (tree a rest).Proper) (as : List α) :
    (as.foldr tree (.text "")).Proper := by
  induction as with
  | nil => exact text_proper ""
  | cons a as ih => exact h a ih

theorem activityTree_proper (chrono : Chrono) (recent : List Dashboard.ActivityEntry) :
    (activityTree chrono recent).Proper := by
  have hli : IsName "li" ∧ "li" ∉ voids := by decide
  unfold activityTree
  split
  · exact leaf_proper _ hli _ (text_proper "")
  · exact foldr_proper (fun _ _ hrest => leaf_proper _ hli _ hrest) recent

theorem dashboardTree_proper (chrono : Chrono) (data : Dashboard.DashboardData) (csrf : String) :
    (dashboardTree chrono data csrf).Proper := by
  have hstrong : IsName "strong" ∧ "strong" ∉ voids := by decide
  have hnone : ∀ n ∈ ([] : List String), IsName n := fun _ h => absurd h List.not_mem_nil
  have hform := postForm_proper "/admin/logout" csrf "Sign out" (text_proper "")
  have hlist := bare_proper "" "ul" (by decide)
    (activityTree_proper chrono data.recent) (link_proper "/admin/keys" "Manage API keys" hform)
  have hrecent := leaf_proper "h2" (by decide) "Recent activity (last 24h)" hlist
  have hsignal := labelled_proper [] hnone "Signal quality: " hstrong
    (signalLabel data.signalPercent) hrecent
  have hhealth := labelled_proper [] hnone "Modem health: " hstrong
    (healthLabel data.health) hsignal
  exact page_proper "Admin Dashboard" (leaf_proper "h1" (by decide) "Dashboard" hhealth)

theorem newKeyTree_proper (newKey : Option String) {rest : Forest} (hrest : rest.Proper) :
    (newKeyTree newKey rest).Proper := by
  have hattrs : ∀ n ∈ ["class"], IsName n := by decide
  cases newKey with
  | none => exact hrest
  | some key => exact labelled_proper [("class", "new-key")] hattrs _ (by decide) key hrest

theorem keyTree_proper (csrf : String) (k : ApiKeyView) {rest : Forest} (hrest : rest.Proper) :
    (keyTree csrf k rest).Proper := by
  have htd : IsName "td" ∧ "td" ∉ voids := by decide
  have hrevoke : (revokeTree csrf k).Proper := by
    unfold revokeTree
    split
    · exact text_proper _
    · exact postForm_proper _ csrf _ (text_proper "")
  have hcode := leaf_proper "code" (by decide) k.keyIdentifier (text_proper "")
  exact bare_proper _ _ (by decide) (leaf_proper _ htd _ (bare_proper _ _ htd hcode
    (leaf_proper _ htd _ (bare_proper _ _ htd hrevoke (text_proper ""))))) hrest

theorem rowsTree_proper (csrf : String) (keys : List ApiKeyView) : (rowsTree csrf keys).Proper := by
  unfold rowsTree
  split
  · exact bare_proper _ _ (by decide) (.element (by decide) (by decide)
      (text_proper _) (text_proper "")) (text_proper "")
  · exact foldr_proper (keyTree_proper csrf) keys

theorem keysTree_proper (keys : List ApiKeyView) (newKey : Option String) (csrf : String) :
    (keysTree keys newKey csrf).Proper := by
  have hth : IsName "th" ∧ "th" ∉ voids := by decide
  have hhead := leaf_proper _ hth "ID" (leaf_proper _ hth "Identifier" (leaf_proper _ hth "Created"
    (leaf_proper _ hth "Action" (text_proper ""))))
  have hrow := bare_proper "" "tr" (by decide) hhead (text_proper "")
  have hbody := bare_proper "" "tbody" (by decide)
    (rowsTree_proper csrf keys) (text_proper "")
  have hthead := bare_proper "" "thead" (by decide) hrow hbody
  have htable := bare_proper "" "table" (by decide) hthead
    (link_proper "/admin" "Back to dashboard" (text_proper ""))
  have hform := postForm_proper "/admin/keys" csrf "Create new key" htable
  exact page_proper "API Keys"
    (leaf_proper "h1" (by decide) "API Keys" (newKeyTree_proper newKey hform))

/-! ## Every text stays in its place -/

theorem parse_renderKeys (keys : List ApiKeyView) (newKey : Option String) (csrf : String) :
    Markup.parse (renderKeys keys newKey csrf).toList =
      some (keysTree keys newKey csrf).received := by
  rw [renderKeys_write]
  exact Markup.parse_write (keysTree_proper keys newKey csrf)

theorem parse_renderDashboard (chrono : Chrono) (data : Dashboard.DashboardData) (csrf : String) :
    Markup.parse (renderDashboard chrono data csrf).toList =
      some (dashboardTree chrono data csrf).received := by
  rw [renderDashboard_write]
  exact Markup.parse_write (dashboardTree_proper chrono data csrf)

/-! ## Texts that are received as they are -/

/-- A text without carriage returns and null characters. -/
def Plain (s : String) : Prop := Markup.Plain s.toList

instance instDecidablePlain (s : String) : Decidable (Plain s) :=
  inferInstanceAs (Decidable (Markup.Plain s.toList))

theorem plain_append {s t : String} : Plain (s ++ t) ↔ Plain s ∧ Plain t := by
  rw [Plain, String.toList_append]
  exact Markup.plain_append

theorem plain_esc {s : String} : Plain (esc s) ↔ Plain s := by
  rw [Plain, toList_esc]
  exact Markup.plain_escape

theorem plain_join {α : Type} {render : α → String} {as : List α}
    (h : ∀ a ∈ as, Plain (render a)) : Plain (String.join (as.map render)) := by
  rw [Plain, String.toList_join]
  refine Markup.plain_flatMap.mpr (fun s hs => ?_)
  obtain ⟨a, ha, rfl⟩ := List.mem_map.mp hs
  exact h a ha

theorem plain_toString (n : Nat) : Plain (toString n) := by
  intro c hc
  rw [Nat.toString_eq_ofList_toDigits, String.toList_ofList] at hc
  have hdigit := Text.isDigit_toDigits hc
  by_contra hnot
  simp only [Markup.isPlain, Bool.and_eq_true, decide_eq_true_eq, not_and_or, not_not] at hnot
  rcases hnot with rfl | rfl <;> exact absurd hdigit (by decide)

theorem plain_csrfInput {csrf : String} (h : Plain csrf) : Plain (csrfInput csrf) := by
  unfold csrfInput
  simp only [plain_append, plain_esc, h]
  decide +kernel

/-- The texts of a key. -/
structure PlainKey (k : ApiKeyView) : Prop where
  keyIdentifier : Plain k.keyIdentifier
  createdAt : Plain k.createdAt

structure PlainEntry (chrono : Chrono) (e : Dashboard.ActivityEntry) : Prop where
  timestamp : Plain (String.ofList (chrono.toRfc3339 e.timestamp))
  description : Plain e.description

theorem plain_keyRow {csrf : String} {k : ApiKeyView} (hcsrf : Plain csrf) (hk : PlainKey k) :
    Plain (keyRow csrf k) := by
  have hrevoke : Plain (revokeCell csrf k) := by
    unfold revokeCell
    split
    · decide +kernel
    · simp only [plain_append, plain_toString, plain_csrfInput hcsrf]
      decide +kernel
  unfold keyRow
  simp only [plain_append, plain_toString, plain_esc, hk.keyIdentifier, hk.createdAt, hrevoke]
  decide +kernel

theorem plain_renderKeys {keys : List ApiKeyView} {newKey : Option String} {csrf : String}
    (hkeys : ∀ k ∈ keys, PlainKey k) (hnew : ∀ key ∈ newKey, Plain key) (hcsrf : Plain csrf) :
    Plain (renderKeys keys newKey csrf) := by
  have hbanner : Plain (newKeyBanner newKey) := by
    cases newKey with
    | none => decide +kernel
    | some key =>
      unfold newKeyBanner
      simp only [plain_append, plain_esc, hnew key rfl]
      decide +kernel
  have hrows : Plain (keyRows csrf keys) := by
    unfold keyRows
    split
    · decide +kernel
    · exact plain_join (fun k hk => plain_keyRow hcsrf (hkeys k hk))
  unfold renderKeys
  simp only [plain_append, hbanner, hrows, plain_csrfInput hcsrf]
  decide +kernel

theorem plain_renderDashboard {chrono : Chrono} {data : Dashboard.DashboardData} {csrf : String}
    (hrecent : ∀ e ∈ data.recent, PlainEntry chrono e) (hcsrf : Plain csrf) :
    Plain (renderDashboard chrono data csrf) := by
  have hhealth : Plain (healthLabel data.health) := by
    cases data.health <;> decide +kernel
  have hsignal : Plain (signalLabel data.signalPercent) := by
    unfold signalLabel
    cases data.signalPercent with
    | none => decide +kernel
    | some p =>
      simp only [plain_append, plain_toString]
      decide +kernel
  have hlist : Plain (activityList chrono data.recent) := by
    unfold activityList
    split
    · decide +kernel
    · refine plain_join (fun e he => ?_)
      unfold activityItem
      simp only [plain_append, plain_esc, (hrecent e he).timestamp, (hrecent e he).description]
      decide +kernel
  unfold renderDashboard
  simp only [plain_append, hhealth, hsignal, hlist, plain_csrfInput hcsrf]
  decide +kernel

theorem parse_renderKeys_plain {keys : List ApiKeyView} {newKey : Option String} {csrf : String}
    (hkeys : ∀ k ∈ keys, PlainKey k) (hnew : ∀ key ∈ newKey, Plain key) (hcsrf : Plain csrf) :
    Markup.parse (renderKeys keys newKey csrf).toList = some (keysTree keys newKey csrf) := by
  have hplain : Markup.Plain (renderKeys keys newKey csrf).toList :=
    plain_renderKeys hkeys hnew hcsrf
  rw [renderKeys_write] at hplain
  rw [parse_renderKeys, Markup.received_of_write (Markup.plain_append.mp hplain).2]

theorem parse_renderDashboard_plain {chrono : Chrono} {data : Dashboard.DashboardData}
    {csrf : String} (hrecent : ∀ e ∈ data.recent, PlainEntry chrono e) (hcsrf : Plain csrf) :
    Markup.parse (renderDashboard chrono data csrf).toList =
      some (dashboardTree chrono data csrf) := by
  have hplain : Markup.Plain (renderDashboard chrono data csrf).toList :=
    plain_renderDashboard hrecent hcsrf
  rw [renderDashboard_write] at hplain
  rw [parse_renderDashboard, Markup.received_of_write (Markup.plain_append.mp hplain).2]

/-! ## The elements do not depend on the texts -/

def blankKey (k : ApiKeyView) : ApiKeyView := { k with keyIdentifier := "", createdAt := "" }

def blankEntry (e : Dashboard.ActivityEntry) : Dashboard.ActivityEntry :=
  { e with description := "" }

/-- Prints every instant as the empty text. -/
def silent (chrono : Chrono) : Chrono := { chrono with toRfc3339 := fun _ => [] }

theorem skeleton_postForm {rest rest' : Forest} (h : rest.skeleton = rest'.skeleton)
    (action csrf csrf' label : String) :
    (postForm action csrf label rest).skeleton = (postForm action csrf' label rest').skeleton := by
  unfold postForm csrfField
  simp only [Forest.skeleton, List.map_cons, List.map_nil, h]

theorem skeleton_leaf {rest rest' : Forest} (h : rest.skeleton = rest'.skeleton)
    (name text text' : String) :
    (leaf name text rest).skeleton = (leaf name text' rest').skeleton := by
  simp only [leaf, Forest.skeleton, h]

theorem skeleton_labelled {rest rest' : Forest} (h : rest.skeleton = rest'.skeleton)
    (attrs : List (String × String)) (label name text text' : String) :
    (labelled attrs label name text rest).skeleton =
      (labelled attrs label name text' rest').skeleton := by
  unfold labelled
  simp only [Forest.skeleton, h]

theorem skeleton_page {body body' : Forest} (h : body.skeleton = body'.skeleton) (title : String) :
    (page title body).skeleton = (page title body').skeleton := by
  unfold page
  simp only [Forest.skeleton, h]

theorem skeleton_foldr {α : Type} {tree tree' : α → Forest → Forest} {blank : α → α}
    (h : ∀ a {rest rest'}, rest.skeleton = rest'.skeleton →
      (tree a rest).skeleton = (tree' (blank a) rest').skeleton) (as : List α) :
    (as.foldr tree (.text "")).skeleton = ((as.map blank).foldr tree' (.text "")).skeleton := by
  induction as with
  | nil => rfl
  | cons a as ih => exact h a ih

theorem skeleton_revokeTree (csrf : String) (k : ApiKeyView) :
    (revokeTree csrf k).skeleton = (revokeTree "" (blankKey k)).skeleton := by
  obtain ⟨id, keyIdentifier, customRateLimit, revoked, createdAt⟩ := k
  cases revoked with
  | true => rfl
  | false => exact skeleton_postForm rfl _ csrf "" "Revoke"

theorem skeleton_keyTree (csrf : String) (k : ApiKeyView) {rest rest' : Forest}
    (h : rest.skeleton = rest'.skeleton) :
    (keyTree csrf k rest).skeleton = (keyTree "" (blankKey k) rest').skeleton := by
  unfold keyTree
  simp only [leaf, Forest.skeleton, skeleton_revokeTree csrf k, h]

theorem skeleton_newKeyTree {rest rest' : Forest} (h : rest.skeleton = rest'.skeleton)
    (newKey : Option String) : (newKeyTree newKey rest).skeleton =
      (newKeyTree (newKey.map (fun _ => "")) rest').skeleton := by
  cases newKey with
  | none => exact h
  | some key => exact skeleton_labelled h _ _ _ key ""

theorem skeleton_keysTree (keys : List ApiKeyView) (newKey : Option String) (csrf : String) :
    (keysTree keys newKey csrf).skeleton =
      (keysTree (keys.map blankKey) (newKey.map (fun _ => "")) "").skeleton := by
  have hrows : (rowsTree csrf keys).skeleton = (rowsTree "" (keys.map blankKey)).skeleton := by
    unfold rowsTree
    rw [List.isEmpty_map]
    split
    · rfl
    · exact skeleton_foldr (skeleton_keyTree csrf) keys
  unfold keysTree
  refine skeleton_page (skeleton_leaf
    (skeleton_newKeyTree (skeleton_postForm ?_ _ csrf "" _) newKey) _ _ _) _
  simp only [Forest.skeleton, hrows]

theorem skeleton_dashboardTree (chrono : Chrono) (data : Dashboard.DashboardData) (csrf : String) :
    (dashboardTree chrono data csrf).skeleton = (dashboardTree (silent chrono)
      { data with recent := data.recent.map blankEntry } "").skeleton := by
  have hrecent : (activityTree chrono data.recent).skeleton =
      (activityTree (silent chrono) (data.recent.map blankEntry)).skeleton := by
    unfold activityTree
    rw [List.isEmpty_map]
    split
    · rfl
    · refine skeleton_foldr (fun _ _ _ h => ?_) data.recent
      exact skeleton_leaf h _ _ _
  have hform := skeleton_postForm (rfl : (Forest.text "").skeleton = _) "/admin/logout" csrf ""
    "Sign out"
  unfold dashboardTree link
  refine skeleton_page (skeleton_leaf (skeleton_labelled (skeleton_labelled (skeleton_leaf ?_ _ _ _)
    _ _ _ _ _) _ _ _ _ _) _ _ _) _
  simp only [Forest.skeleton, hrecent, hform]

/-! ## Escaping -/

theorem esc_injective : Function.Injective esc := by
  intro s t h
  have hs := Markup.decode_escape s.toList
  rw [← toList_esc, h, toList_esc, Markup.decode_escape] at hs
  exact (String.toList_inj.mp (Option.some.inj hs)).symm

/-- Escaping can be undone, no text changes what a page is made of, and each text
is received in its place: as it is, without carriage returns and null characters. -/
theorem pages_escape_texts :
    (Function.Injective esc ∧ ∀ s : String,
      (∀ m ∈ ['<', '>', '"'], m ∉ (esc s).toList) ∧
      (∀ before after, (esc s).toList = before ++ '&' :: after →
        ∃ e ∈ Markup.entities, e <+: after) ∧
      Markup.decode (esc s).toList = some s.toList) ∧
    (∀ (keys : List ApiKeyView) (newKey : Option String) (csrf : String),
      Markup.parse (renderKeys keys newKey csrf).toList =
        some (keysTree keys newKey csrf).received ∧
      ((∀ k ∈ keys, PlainKey k) → (∀ key ∈ newKey, Plain key) → Plain csrf →
        Markup.parse (renderKeys keys newKey csrf).toList = some (keysTree keys newKey csrf)) ∧
      (Markup.parse (renderKeys keys newKey csrf).toList).map Forest.skeleton =
        (Markup.parse (renderKeys (keys.map blankKey) (newKey.map (fun _ => "")) "").toList).map
          Forest.skeleton) ∧
    (∀ (chrono : Chrono) (data : Dashboard.DashboardData) (csrf : String),
      Markup.parse (renderDashboard chrono data csrf).toList =
        some (dashboardTree chrono data csrf).received ∧
      ((∀ e ∈ data.recent, PlainEntry chrono e) → Plain csrf →
        Markup.parse (renderDashboard chrono data csrf).toList =
          some (dashboardTree chrono data csrf)) ∧
      (Markup.parse (renderDashboard chrono data csrf).toList).map Forest.skeleton =
        (Markup.parse (renderDashboard (silent chrono)
          { data with recent := data.recent.map blankEntry } "").toList).map Forest.skeleton) := by
  refine ⟨⟨esc_injective, fun s => ?_⟩, fun keys newKey csrf => ?_, fun chrono data csrf => ?_⟩
  · rw [toList_esc]
    exact ⟨fun _ hm => Markup.not_mem_escape hm s.toList,
      fun _ _ h => Markup.escape_ampersand h, Markup.decode_escape s.toList⟩
  · refine ⟨parse_renderKeys keys newKey csrf, parse_renderKeys_plain, ?_⟩
    rw [parse_renderKeys, parse_renderKeys, Option.map_some, Option.map_some,
      Markup.skeleton_received, Markup.skeleton_received, skeleton_keysTree]
  · refine ⟨parse_renderDashboard chrono data csrf, parse_renderDashboard_plain, ?_⟩
    rw [parse_renderDashboard, parse_renderDashboard, Option.map_some, Option.map_some,
      Markup.skeleton_received, Markup.skeleton_received, skeleton_dashboardTree]

def viewOf (keyIdentifier : String) : ApiKeyView :=
  { id := 1, keyIdentifier := keyIdentifier, customRateLimit := none, revoked := false,
    createdAt := "2026-01-01T00:00:00+00:00" }

theorem pages_escape_texts_mixed : ('<' ∉ (esc "<&").toList) ∧
    Markup.parse (renderKeys [viewOf "<script>"] (some "<b>plain</b>") "tok").toList =
      some (keysTree [viewOf "<script>"] (some "<b>plain</b>") "tok") := by
  obtain ⟨⟨_, hesc⟩, hkeys, _⟩ := pages_escape_texts
  refine ⟨(hesc "<&").1 '<' (by decide), (hkeys _ _ _).2.1 ?_ ?_ (by decide +kernel)⟩
  · intro k hk
    rw [List.mem_singleton.mp hk]
    exact ⟨by decide +kernel, by decide +kernel⟩
  · intro key hkey
    obtain rfl : "<b>plain</b>" = key := Option.some.inj hkey
    decide +kernel

/-- A carriage return in a key identifier is received as a line feed. -/
theorem carriage_return_lost :
    ¬ ∀ (keys : List ApiKeyView) (newKey : Option String) (csrf : String),
      Markup.parse (renderKeys keys newKey csrf).toList = some (keysTree keys newKey csrf) := by
  intro h
  have hsame := Option.some.inj ((parse_renderKeys _ _ _).symm.trans (h [viewOf "a\rb"] none ""))
  exact absurd hsame (by decide +kernel)

end Pages
end Admin
end GreenRelay
