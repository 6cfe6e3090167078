import XmlAdvisor.Proofs.DocumentRepairs
import XmlAdvisor.Proofs.TextSplices

/-!
# Edits that are kept go together

Edits that are to be applied together are taken in the order of their ranges, and one that begins
before the last one that was taken has ended is left out.  This is decided on positions, while edits
are applied to spans: columns behind the end of a line fall together there, and a range that ends
before it begins becomes empty.  Offsets never go back where positions go on, so what is apart stays
apart.

* `Range.Overruns` — a range does not end before another one behind it begins.
* `keepApart_pairwise` — what is kept, in its order.
* `keepApart_dropped` — what is left out, and why.
* **`Document.applyEdits_withoutOverlaps`** — what is kept can be applied, and nothing is left out
  without an overlap.
-/

namespace XmlAdvisor

/-- Whether a range that stands ahead of another one, or alike, ends behind where the other
begins. -/
def Range.Overruns (r s : Range) : Prop :=
  r.notAfter s = true ∧ s.start.before r.stop = true

/-! ## What is kept and what is left out -/

section Kept

variable {edits : List TextEdit}

/-- Of edits in order, those that are kept begin where no one ahead of them has still to end. -/
lemma keepApart_pairwise (hsorted : edits.Pairwise fun p q => p.range.notAfter q.range = true)
    (last : Option Position) :
    (∀ p ∈ keepApart last edits, ∀ stop ∈ last, p.range.start.before stop = false) ∧
      (keepApart last edits).Pairwise fun p q => q.range.start.before p.range.stop = false := by
  induction edits generalizing last with
  | nil => exact ⟨fun p hp => absurd hp List.not_mem_nil, .nil⟩
  | cons p more ih =>
      obtain ⟨hfirst, hmore⟩ := List.pairwise_cons.mp hsorted
      rw [keepApart]
      split_ifs with hoverlap
      · exact ih hmore last
      · have hclear : ∀ stop ∈ last, p.range.start.before stop = false := by
          intro stop hstop
          rw [Option.mem_def.mp hstop] at hoverlap
          exact Bool.eq_false_iff.mpr hoverlap
        obtain ⟨hlater, hpairwise⟩ := ih hmore (some p.range.stop)
        refine ⟨fun q hq stop hstop => ?_, List.pairwise_cons.mpr
          ⟨fun q hq => hlater q hq p.range.stop rfl, hpairwise⟩⟩
        rcases List.mem_cons.mp hq with rfl | hq
        · exact hclear stop hstop
        · -- a range may end before it begins, so what is behind it is compared with where it begins
          have hbehind := Range.start_of_notAfter (hfirst q ((keepApart_sublist _ more).subset hq))
          exact Position.not_before_trans (hclear stop hstop) hbehind

/-- What is left out begins before one that is kept has ended, or before `last`. -/
lemma keepApart_dropped (hsorted : edits.Pairwise fun p q => p.range.notAfter q.range = true)
    (last : Option Position) :
    ∃ dropped, (keepApart last edits ++ dropped).Perm edits ∧ ∀ e ∈ dropped,
      (∃ stop ∈ last, e.range.start.before stop = true) ∨
        ∃ k ∈ keepApart last edits, k.range.Overruns e.range := by
  induction edits generalizing last with
  | nil => exact ⟨[], .nil, nofun⟩
  | cons p more ih =>
      obtain ⟨hfirst, hmore⟩ := List.pairwise_cons.mp hsorted
      rw [keepApart]
      split_ifs with hoverlap
      · obtain ⟨dropped, hperm, hdropped⟩ := ih hmore last
        refine ⟨p :: dropped, List.perm_middle.trans (hperm.cons p), fun e he => ?_⟩
        rcases List.mem_cons.mp he with rfl | he
        · exact .inl ((Option.any_eq_true ..).mp hoverlap)
        · exact hdropped e he
      · obtain ⟨dropped, hperm, hdropped⟩ := ih hmore (some p.range.stop)
        refine ⟨dropped, hperm.cons p, fun e he => .inr ?_⟩
        rcases hdropped e he with ⟨_, ⟨⟩, hbefore⟩ | ⟨k, hk, hoverruns⟩
        · have hmem := hperm.mem_iff.mp (List.mem_append_right _ he)
          exact ⟨p, List.mem_cons_self .., hfirst e hmem, hbefore⟩
        · exact ⟨k, List.mem_cons_of_mem p hk, hoverruns⟩

end Kept

lemma pairwise_sorted (edits : List TextEdit) :
    (edits.mergeSort fun p q => p.range.notAfter q.range).Pairwise
      fun p q => p.range.notAfter q.range = true :=
  List.pairwise_mergeSort (fun p q r => Range.notAfter_trans p.range q.range r.range)
    (fun p q => Range.notAfter_total p.range q.range) edits

/-! ## Applying what is kept -/

/-- Splices that each end before all behind them begin do not overlap. -/
lemma not_overlapping_of_apart {splices : List Splice}
    (hspans : ∀ s ∈ splices, s.span.start ≤ s.span.stop)
    (h : splices.Pairwise fun s t => s.span.stop ≤ t.span.start) : ¬Overlapping splices := by
  refine (not_overlapping_iff (h.imp_of_mem fun {s t} hs ht hst => ?_)).mpr h
  have hs := hspans s hs
  have ht := hspans t ht
  rw [Span.notAfter_iff]
  omega

namespace Document

variable {d : Document}

/-- Edits that are apart as positions stand for spans that are apart. -/
lemma stop_le_start_of_splice? {p q : TextEdit} {s t : Splice} (hs : d.splice? p = some s)
    (ht : d.splice? q = some t) (hstart : q.range.start.before p.range.start = false)
    (hstop : q.range.start.before p.range.stop = false) : s.span.stop ≤ t.span.start := by
  obtain ⟨span, hspan, rfl⟩ := Option.map_eq_some_iff.mp hs
  obtain ⟨span', hspan', rfl⟩ := Option.map_eq_some_iff.mp ht
  rw [editSpan?] at hspan hspan'
  split at hspan
  · rename_i start stop hpstart hpstop
    split at hspan'
    · rename_i start' stop' hqstart hqstop
      have hle := offsetAt_le_of_not_before hpstart hqstart hstart
      have hle' := offsetAt_le_of_not_before hpstop hqstart hstop
      cases hspan
      cases hspan'
      split_ifs <;> assumption
    · cases hspan'
  · cases hspan

/-- **What is kept can be applied.**  Whatever the columns of edits are, those that are kept of them
can be applied together.  An edit that is left out begins before one that is kept, and that does not
stand behind it, has ended. -/
theorem applyEdits_withoutOverlaps (d : Document) (edits : List TextEdit)
    (hlines : ∀ e ∈ edits, d.HasLines e.range) :
    (∃ text, d.applyEdits (withoutOverlaps edits) = .ok text) ∧
    ∃ dropped, (withoutOverlaps edits ++ dropped).Perm edits ∧
      ∀ e ∈ dropped, ∃ k ∈ withoutOverlaps edits, k.range.Overruns e.range := by
  have hsorted := pairwise_sorted edits
  have hperm := List.mergeSort_perm edits fun p q : TextEdit => p.range.notAfter q.range
  have hsub : (withoutOverlaps edits).Sublist _ := keepApart_sublist none _
  constructor
  · have hkeptlines : ∀ e ∈ withoutOverlaps edits, d.HasLines e.range :=
      fun e he => hlines e (hperm.mem_iff.mp (hsub.subset he))
    obtain ⟨splices, hmap, hall, hinside⟩ := mapM_spliceOf hkeptlines
    have hspans : ∀ s ∈ splices, s.span.start ≤ s.span.stop := fun s hs => (hinside s hs).1
    have hapart : splices.Pairwise fun s t => s.span.stop ≤ t.span.start := by
      rw [eq_filterMap_splice? hall]
      refine ((hsorted.sublist hsub).and (keepApart_pairwise hsorted none).2).filterMap d.splice? ?_
      intro p q ⟨hordered, hstop⟩ s hs t ht
      exact stop_le_start_of_splice? hs ht (Range.start_of_notAfter hordered) hstop
    exact ⟨_, applyEdits_of_apart hmap hspans (not_overlapping_of_apart hspans hapart)⟩
  · obtain ⟨dropped, hdropped, hwhy⟩ := keepApart_dropped hsorted none
    refine ⟨dropped, hdropped.trans hperm, fun e he => ?_⟩
    rcases hwhy e he with ⟨_, ⟨⟩, -⟩ | hkept
    exact hkept

def linesDocument : Document :=
  .parse default 1 .utf16 "ab\ncd".toList

/-- One edit that ends behind its line, one that begins there, and one that ends before it
begins. -/
def unevenEdits : List TextEdit :=
  [⟨⟨⟨1, 1⟩, ⟨0, 0⟩⟩, "y"⟩, ⟨⟨⟨0, 4⟩, ⟨0, 6⟩⟩, "z"⟩, ⟨⟨⟨0, 1⟩, ⟨0, 9⟩⟩, "x"⟩]

theorem applyEdits_withoutOverlaps_uneven :
    (∀ e ∈ unevenEdits, linesDocument.HasLines e.range) ∧
    withoutOverlaps unevenEdits = [⟨⟨⟨0, 1⟩, ⟨0, 9⟩⟩, "x"⟩, ⟨⟨⟨1, 1⟩, ⟨0, 0⟩⟩, "y"⟩] ∧
    (∃ text, linesDocument.applyEdits (withoutOverlaps unevenEdits) = .ok text) ∧
    ∃ dropped, (withoutOverlaps unevenEdits ++ dropped).Perm unevenEdits ∧
      ∀ e ∈ dropped, ∃ k ∈ withoutOverlaps unevenEdits, k.range.Overruns e.range := by
  have hlines : ∀ e ∈ unevenEdits, linesDocument.HasLines e.range := by
    unfold HasLines
    decide +kernel
  exact ⟨hlines, by cbv, applyEdits_withoutOverlaps linesDocument unevenEdits hlines⟩

end Document

end XmlAdvisor
