/-
Fields of a line, split at the commas outside double quotes.

The loop pushes characters onto the open field and toggles one flag at each
double quote, so the flag says whether the open field has an odd number of
them.  What comes out is the one cut of the line at the commas with an even
number of double quotes before them.
-/
import GreenRelay.Lib.Quoted
import GreenRelay.Modem.Protocol

namespace GreenRelay
namespace Modem

open Text Quoted

theorem cut_splitQuotedCsvFrom (s : List Char) {current : List Char} {inQuotes : Bool}
    (hflag : inQuotes = true ↔ Open '"' current) (hsolid : Solid '"' ',' current) :
    Cut '"' ',' (current ++ s) (splitQuotedCsvFrom s current inQuotes) := by
  -- The flag speaks of the open field alone: the fields before it are closed.
  induction s generalizing current inQuotes with
  | nil =>
    rw [List.append_nil, splitQuotedCsvFrom]
    exact .last hsolid
  | cons c s ih =>
    have hmove : current ++ c :: s = (current ++ [c]) ++ s := by simp
    rw [splitQuotedCsvFrom]
    by_cases hquote : c = '"'
    · subst hquote
      rw [if_pos rfl, hmove]
      refine ih ?_ (solid_snoc hsolid (fun h => absurd h (by decide)))
      rw [open_quote, ← hflag]
      simp
    · rw [if_neg hquote]
      by_cases hcomma : c = ',' ∧ inQuotes = false
      · obtain ⟨rfl, rfl⟩ := hcomma
        have hclosed : ¬ Open '"' current := fun h => absurd (hflag.mpr h) (by decide)
        rw [if_pos ⟨rfl, rfl⟩]
        exact .field hsolid hclosed (ih (by simp [open_nil]) solid_nil)
      · rw [if_neg hcomma, hmove]
        refine ih ?_ (solid_snoc hsolid (fun h => ?_))
        · rw [open_other hquote, hflag]
        · rw [← hflag]
          simpa [h] using hcomma

theorem cut_splitQuotedCsv (s : List Char) : Cut '"' ',' s (splitQuotedCsv s) :=
  cut_splitQuotedCsvFrom s (by simp [open_nil]) solid_nil

/-- Closed fields that keep their commas in quotes come back from their join. -/
theorem splitQuotedCsv_intercalate {fields : List (List Char)} (hne : fields ≠ [])
    (h : ∀ f ∈ fields, ¬ Open '"' f ∧ Solid '"' ',' f) :
    splitQuotedCsv (join [','] fields) = fields :=
  (cut_splitQuotedCsv _).unique (cut_intercalate hne h)

/-- Splitting loses nothing and stops at the commas outside quotes only: the
fields join to the text, a comma inside a field comes after an odd number of
double quotes, there is one field more than there are commas after an even
number of them, and every list of closed fields comes back from its join. -/
theorem splitQuotedCsv_exact (s : List Char) :
    join [','] (splitQuotedCsv s) = s ∧
      (∀ before f after, splitQuotedCsv s = before ++ f :: after → ∀ a b, f = a ++ ',' :: b →
        ∃ rest, s = before.flatMap (fun g => g ++ [',']) ++ a ++ ',' :: rest ∧
          (before.flatMap (fun g => g ++ [',']) ++ a).count '"' % 2 = 1) ∧
      (splitQuotedCsv s).length = 1 + (List.range s.length).countP
        (fun i => s[i]? = some ',' ∧ ¬ (s.take i).count '"' % 2 = 1) ∧
      ∀ fields : List (List Char), fields ≠ [] →
        (∀ f ∈ fields, f.count '"' % 2 = 0 ∧ ∀ a b, f = a ++ ',' :: b → a.count '"' % 2 = 1) →
        splitQuotedCsv (join [','] fields) = fields := by
  have hcut := cut_splitQuotedCsv s
  refine ⟨hcut.joined, ?_, ?_, ?_⟩
  · intro before f after hsplit a b hf
    rw [hsplit, hf] at hcut
    exact hcut.inside (by decide)
  · rw [hcut.length_eq (by decide), Nat.add_comm]
    rfl
  · intro fields hne h
    refine splitQuotedCsv_intercalate hne (fun f hf => ⟨?_, (h f hf).2⟩)
    have heven := (h f hf).1
    unfold Open
    omega

example : splitQuotedCsv ['1', ',', '"', 'a', ',', '"', ',', ','] =
    [['1'], ['"', 'a', ',', '"'], [], []] := by decide

end Modem
end GreenRelay
