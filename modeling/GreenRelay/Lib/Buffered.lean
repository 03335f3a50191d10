/-
Waiting on a growing buffer.

A reader that waits for something appends what each read delivers to a buffer
and looks at the buffer between the reads.  `find` is what it looks for.  What
the reads deliver up to the end of the wait is one stream, and the cuts between
the reads matter only in that `find` sees the prefixes of the stream that end at
a cut.
-/

namespace Buffered

inductive Read (α : Type) where
  | data (items : List α)
  | timeout
  | failed
  deriving DecidableEq, Repr

/-- How a wait ends.  It is `cut` when there is no further read to go by. -/
inductive Reply (β : Type) where
  | found (value : β)
  | timeout
  | failed
  | cut
  deriving DecidableEq, Repr

section Scanning

variable {α β : Type}

def scan (find : List α → Option β) (buffer : List α) (reads : List (Read α)) : Reply β :=
  match find buffer with
  | some value => .found value
  | none =>
    match reads with
    | [] => .cut
    | .data items :: rest => scan find (buffer ++ items) rest
    | .timeout :: _ => .timeout
    | .failed :: _ => .failed

/-- What is delivered before the first read that delivers nothing. -/
def delivered : List (Read α) → List α
  | [] => []
  | .data items :: rest => items ++ delivered rest
  | .timeout :: _ => []
  | .failed :: _ => []

theorem scan_some {find : List α → Option β} {buffer : List α} {value : β}
    (h : find buffer = some value) (reads : List (Read α)) :
    scan find buffer reads = .found value := by
  unfold scan
  rw [h]

theorem scan_data {find : List α → Option β} {buffer : List α} (h : find buffer = none)
    (items : List α) (rest : List (Read α)) :
    scan find buffer (.data items :: rest) = scan find (buffer ++ items) rest := by
  rw [scan, h]

/-- Two waits that look for the same in every prefix of the stream end alike. -/
theorem scan_congr {f g : List α → Option β} {buffer : List α} {reads : List (Read α)}
    (h : ∀ seen, seen <+: buffer ++ delivered reads → f seen = g seen) :
    scan f buffer reads = scan g buffer reads := by
  induction reads generalizing buffer with
  | nil =>
    unfold scan
    rw [h buffer (List.prefix_append _ _)]
  | cons read rest ih =>
    have hbuffer := h buffer (List.prefix_append _ _)
    cases hfound : f buffer with
    | some value =>
      rw [scan_some hfound, scan_some (hbuffer ▸ hfound)]
    | none =>
      cases read with
      | data items =>
        rw [scan_data hfound, scan_data (hbuffer ▸ hfound)]
        apply ih
        intro seen hseen
        apply h
        show seen <+: buffer ++ (items ++ delivered rest)
        rwa [← List.append_assoc]
      | timeout => rw [scan, scan, hfound, ← hbuffer, hfound]
      | failed => rw [scan, scan, hfound, ← hbuffer, hfound]

/-- What is found is found in a prefix of the stream. -/
theorem scan_found {find : List α → Option β} {buffer : List α} {reads : List (Read α)} {value : β}
    (h : scan find buffer reads = .found value) :
    ∃ seen, seen <+: buffer ++ delivered reads ∧ find seen = some value := by
  induction reads generalizing buffer with
  | nil =>
    cases hfound : find buffer with
    | none =>
      rw [scan, hfound] at h
      cases h
    | some v =>
      rw [scan_some hfound] at h
      exact ⟨buffer, List.prefix_append _ _, by rw [hfound, Reply.found.inj h]⟩
  | cons read rest ih =>
    cases hfound : find buffer with
    | some v =>
      rw [scan_some hfound] at h
      exact ⟨buffer, List.prefix_append _ _, by rw [hfound, Reply.found.inj h]⟩
    | none =>
      cases read with
      | data items =>
        rw [scan_data hfound] at h
        obtain ⟨seen, hseen, hvalue⟩ := ih h
        exact ⟨seen, by rwa [List.append_assoc] at hseen, hvalue⟩
      | timeout | failed =>
        rw [scan, hfound] at h
        cases h

/-- What is in the stream is found if no prefix of the stream shows anything
else. -/
theorem scan_eq_found {find : List α → Option β} {buffer : List α} {reads : List (Read α)}
    {value : β} (h : find (buffer ++ delivered reads) = some value)
    (hpre : ∀ seen, seen <+: buffer ++ delivered reads → ∀ v, find seen = some v → v = value) :
    scan find buffer reads = .found value := by
  induction reads generalizing buffer with
  | nil =>
    rw [delivered, List.append_nil] at h
    exact scan_some h _
  | cons read rest ih =>
    cases hfound : find buffer with
    | some v => rw [scan_some hfound, hpre buffer (List.prefix_append _ _) v hfound]
    | none =>
      cases read with
      | data items =>
        rw [scan_data hfound]
        rw [delivered, ← List.append_assoc] at h hpre
        exact ih h hpre
      | timeout | failed =>
        rw [delivered, List.append_nil, hfound] at h
        cases h

/-- A prefix of the buffer can be given to what is looked for. -/
theorem scan_append (find : List α → Option β) (seen buffer : List α) (reads : List (Read α)) :
    scan find (seen ++ buffer) reads = scan (fun rest => find (seen ++ rest)) buffer reads := by
  induction reads generalizing buffer with
  | nil =>
    rw [scan, scan]
  | cons read rest ih =>
    unfold scan
    cases find (seen ++ buffer) with
    | some value => rfl
    | none =>
      cases read with
      | data items =>
        show scan find (seen ++ buffer ++ items) rest = scan _ (buffer ++ items) rest
        rw [List.append_assoc]
        exact ih (buffer ++ items)
      | timeout => rfl
      | failed => rfl

/-- A wait that looks for more finds something as well. -/
theorem scan_found_of_imp {γ : Type} {f : List α → Option β} {g : List α → Option γ}
    (h : ∀ seen value, f seen = some value → (g seen).isSome) {buffer : List α}
    {reads : List (Read α)} {value : β} (hfound : scan f buffer reads = .found value) :
    ∃ other, scan g buffer reads = .found other := by
  have hnone : ∀ {seen : List α}, g seen = none → f seen = none := by
    intro seen hg
    cases hf : f seen with
    | none => rfl
    | some v => exact absurd (h seen v hf) (by simp [hg])
  induction reads generalizing buffer with
  | nil =>
    cases hg : g buffer with
    | some other => exact ⟨other, scan_some hg []⟩
    | none =>
      rw [scan, hnone hg] at hfound
      cases hfound
  | cons read rest ih =>
    cases hg : g buffer with
    | some other => exact ⟨other, scan_some hg (read :: rest)⟩
    | none =>
      cases read with
      | data items =>
        rw [scan_data (hnone hg)] at hfound
        rw [scan_data hg]
        exact ih hfound
      | timeout | failed =>
        rw [scan, hnone hg] at hfound
        cases hfound

end Scanning

end Buffered
