import EntityConventions.Proofs.Discovery
import EntityConventions.Proofs.Spellings

/-! # Reports in order

The order of paths is a total preorder, because comparing two paths decides the lexicographic order
of their components (`Path.isLE_order_iff`); it does not tell apart the spellings of one path
(`Path.components_eq_iff_eqvGen`).  The findings of a report are put in the order of their files,
lines and codes (`Finding.key_le_key_iff`), and findings that agree in all three stay as they were.
A report in order is left alone (`Report.sorted_of_pairwise`), so that sorting again changes nothing
(`Report.sorted_in_order`). -/

namespace EntityConventions

/-! ### The order of paths -/

namespace Path

theorem isLE_order_total (p q : Path) :
    (p.order q).isLE = true ∨ (q.order p).isLE = true := by
  rw [isLE_order_iff, isLE_order_iff]
  exact le_total _ _

theorem isLE_order_trans {p q r : Path} (hpq : (p.order q).isLE = true)
    (hqr : (q.order r).isLE = true) : (p.order r).isLE = true := by
  rw [isLE_order_iff] at hpq hqr ⊢
  exact hpq.trans hqr

end Path

/-! ### The order of findings -/

/-- Findings are ordered by the components of their files, then by lines, then by codes. -/
theorem Finding.key_le_key_iff (f g : Finding) :
    f.key ≤ g.key ↔ f.file.components < g.file.components ∨
      f.file.components = g.file.components ∧
        (f.line < g.line ∨ f.line = g.line ∧ f.code ≤ g.code) := by
  rw [key, key, Prod.Lex.toLex_le_toLex, Prod.Lex.toLex_le_toLex]

namespace Report

theorem sorted_of_pairwise {r : Report} (h : r.findings.Pairwise fun f g => f.key ≤ g.key) :
    r.sorted = r := by
  have hsorted : r.findings.mergeSort Finding.precedes = r.findings :=
    List.mergeSort_of_pairwise (h.imp fun hle => (Finding.precedes_iff _ _).mpr hle)
  rw [sorted, hsorted]

/-- **Reports are in order.**  Sorting a report gives its findings in the order of the components of
their files, then of their lines, then of their codes; findings that agree in all three stand as
they stood, the counts stay, and sorting again changes nothing.  The order of paths behind this is a
total preorder, in which two paths are equivalent exactly if they have the same components; these
are the spellings of one path. -/
theorem sorted_in_order (r : Report) :
    IsStableSort Finding.key r.findings r.sorted.findings ∧
      (∀ f g : Finding, f.key ≤ g.key ↔ f.file.components < g.file.components ∨
        f.file.components = g.file.components ∧
          (f.line < g.line ∨ f.line = g.line ∧ f.code ≤ g.code)) ∧
      r.sorted.classesChecked = r.classesChecked ∧ r.sorted.filesChecked = r.filesChecked ∧
      r.sorted.sorted = r.sorted ∧
      (∀ p q : Path, (p.order q).isLE = true ∨ (q.order p).isLE = true) ∧
      (∀ p q s : Path, (p.order q).isLE = true → (q.order s).isLE = true →
        (p.order s).isLE = true) ∧
      (∀ p q : Path, (p.order q).isLE = true ∧ (q.order p).isLE = true ↔
        p.components = q.components) ∧
      ∀ p q : Path, p.components = q.components ↔ Relation.EqvGen Path.Respell p q := by
  have hsort := r.isStableSort_sorted
  refine ⟨hsort, Finding.key_le_key_iff, rfl, rfl, sorted_of_pairwise hsort.sorted,
    Path.isLE_order_total, fun p q s => Path.isLE_order_trans, ?_, Path.components_eq_iff_eqvGen⟩
  intro p q
  rw [Path.isLE_order_iff, Path.isLE_order_iff, le_antisymm_iff]

/-- A finding on a line of a file. -/
def noted (file : String) (line : Nat) : Finding :=
  ⟨"EL002", "dates", "mutable", .error, ⟨file⟩, line, "", none⟩

/-- Two spellings of one path come before a longer name, although their texts come behind it. -/
theorem sorted_in_order_spellings :
    let r : Report := ⟨[noted "a-b" 1, noted "a//b" 5, noted "a/b/" 5], 1, 1⟩
    let p : Path := ⟨"a//b"⟩
    let q : Path := ⟨"a/b/"⟩
    let s : Path := ⟨"a-b"⟩
    r.sorted.findings = [noted "a//b" 5, noted "a/b/" 5, noted "a-b" 1] ∧
      IsStableSort Finding.key r.findings r.sorted.findings ∧ r.sorted.sorted = r.sorted ∧
      (p.order q).isLE = true ∧ (q.order s).isLE = true ∧ (p.order s).isLE = true ∧
      p.components = q.components ∧ Relation.EqvGen Path.Respell p q ∧ s.text < p.text := by
  intro r p q s
  have hsorted : r.sorted.findings = [noted "a//b" 5, noted "a/b/" 5, noted "a-b" 1] := by
    have hbehind : (noted "a-b" 1).precedes (noted "a//b" 5) = false := by decide +kernel
    have hbehind' : (noted "a-b" 1).precedes (noted "a/b/" 5) = false := by decide +kernel
    have hequal : (noted "a//b" 5).precedes (noted "a/b/" 5) = true := by decide +kernel
    simp [r, sorted, List.mergeSort, List.MergeSort.Internal.splitInTwo, hbehind, hbehind', hequal]
  obtain ⟨hstable, -, -, -, hagain, -, htrans, hequivalent, hspelled⟩ := r.sorted_in_order
  have hpq : p.components = q.components := by decide +kernel
  have hle : (p.order q).isLE = true := ((hequivalent p q).mpr hpq).1
  have hle' : (q.order s).isLE = true := by decide +kernel
  exact ⟨hsorted, hstable, hagain, hle, hle', htrans p q s hle hle', hpq, (hspelled p q).mp hpq,
    by decide +kernel⟩

end Report

end EntityConventions
