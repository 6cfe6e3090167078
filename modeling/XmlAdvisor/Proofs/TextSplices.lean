import XmlAdvisor.Editor.Edit
import XmlAdvisor.Proofs.PositionOrder
import Mathlib.Data.List.Forall2
import Mathlib.Data.List.Permutation

/-!
# Text edits are spliced into a text

Each edit stands for a span of the text.  Spans are sorted by where they begin and end; no span may
begin before one ahead of it has ended, and looking at neighbours is enough to see that.  Spans that
stand alike keep the order in which their edits were given, and no other order of the edits matters.

* `Document.editSpan?` — the span that an edit stands for.
* `Overlapping` — two splices, of which the one ahead ends behind where the other begins.
* `Arranges` — splices in the order in which they are applied.
* `Spliced` — what becomes of a text when spans of it are replaced and all else stays.
* `spliceText_eq_foldr` — applying splices one after the other from the last to the first does the
  same.
* **`Document.applyEdits_exact`** — when edits can be applied, and what becomes of the text.
-/

namespace XmlAdvisor

/-! ## Sorting by a key -/

section Sorting

variable {α κ : Type} [DecidableEq κ] {key : α → κ} {le : κ → κ → Bool}

/-- Sorting by a key keeps the order of what has the same key. -/
lemma filter_mergeSort (htrans : ∀ a b c, le a b = true → le b c = true → le a c = true)
    (htotal : ∀ a b, (le a b || le b a) = true) (items : List α) (k : κ) :
    (items.mergeSort fun a b => le (key a) (key b)).filter (key · = k) =
      items.filter (key · = k) := by
  have hrefl : le k k = true := by simpa using htotal k k
  have hsame : (items.filter (key · = k)).Pairwise fun a b => le (key a) (key b) = true := by
    refine List.pairwise_of_forall_mem_list fun a ha b hb => ?_
    rw [of_decide_eq_true (List.mem_filter.mp ha).2, of_decide_eq_true (List.mem_filter.mp hb).2]
    exact hrefl
  have hkept := (List.sublist_mergeSort (fun a b c => htrans (key a) (key b) (key c))
    (fun a b => htotal (key a) (key b)) hsame List.filter_sublist).filter (key · = k)
  simp only [List.filter_filter, Bool.and_self] at hkept
  have hperm := (List.mergeSort_perm items fun a b => le (key a) (key b)).filter (key · = k)
  exact (hkept.eq_of_length hperm.length_eq.symm).symm

/-- What is sorted by a key is known from what there is of each key, in its order. -/
lemma eq_of_filter_eq (hantisymm : ∀ a b, le a b = true → le b a = true → a = b)
    {sorted sorted' : List α} (h : sorted.Pairwise fun a b => le (key a) (key b) = true)
    (h' : sorted'.Pairwise fun a b => le (key a) (key b) = true)
    (hsame : ∀ k, sorted.filter (key · = k) = sorted'.filter (key · = k)) : sorted = sorted' := by
  induction sorted generalizing sorted' with
  | nil =>
      cases sorted' with
      | nil => rfl
      | cons b more' => simpa using hsame (key b)
  | cons a more ih =>
      cases sorted' with
      | nil => simpa using hsame (key a)
      | cons b more' =>
          obtain ⟨hfirst, hmore⟩ := List.pairwise_cons.mp h
          obtain ⟨hfirst', hmore'⟩ := List.pairwise_cons.mp h'
          have hkeys : key b = key a := by
            by_contra hne
            -- each of the two heads stands behind the other one
            have ha : a ∈ (b :: more').filter (key · = key a) := by
              rw [← hsame]
              simp
            have hb : b ∈ (a :: more).filter (key · = key b) := by
              rw [hsame]
              simp
            rw [List.filter_cons_of_neg (by simpa using hne)] at ha
            rw [List.filter_cons_of_neg (by simpa using Ne.symm hne)] at hb
            exact hne (hantisymm _ _ (hfirst' a (List.mem_filter.mp ha).1)
              (hfirst b (List.mem_filter.mp hb).1))
          have hheads : a = b := by
            have hka := hsame (key a)
            rw [List.filter_cons_of_pos (by simp), List.filter_cons_of_pos (by simpa using hkeys)]
              at hka
            exact (List.cons.inj hka).1
          subst hheads
          rw [ih hmore hmore' fun k => ?_]
          have hk := hsame k
          rw [List.filter_cons, List.filter_cons] at hk
          split_ifs at hk
          · exact (List.cons.inj hk).2
          · exact hk

end Sorting

/-! ## The spans of edits -/

lemma Span.notAfter_iff (s t : Span) :
    s.notAfter t = true ↔ s.start < t.start ∨ s.start = t.start ∧ s.stop ≤ t.stop := by
  simp [Span.notAfter]

lemma Span.notAfter_trans (s t u : Span) (h : s.notAfter t = true) (h' : t.notAfter u = true) :
    s.notAfter u = true := by
  rw [Span.notAfter_iff] at h h' ⊢
  omega

lemma Span.notAfter_total (s t : Span) : (s.notAfter t || t.notAfter s) = true := by
  rw [Bool.or_eq_true, Span.notAfter_iff, Span.notAfter_iff]
  omega

lemma Span.notAfter_antisymm (s t : Span) (h : s.notAfter t = true) (h' : t.notAfter s = true) :
    s = t := by
  rw [Span.notAfter_iff] at h h'
  have hstart : s.start = t.start := by omega
  have hstop : s.stop = t.stop := by omega
  calc s = ⟨s.start, s.stop⟩ := rfl
    _ = ⟨t.start, t.stop⟩ := by rw [hstart, hstop]
    _ = t := rfl

namespace Document

/-- Whether a text has the lines on which a range begins and ends. -/
def HasLines (d : Document) (r : Range) : Prop :=
  r.start.line < (lines d.text).length ∧ r.stop.line < (lines d.text).length

/-- The span that an edit stands for.  One that ends before it begins is empty. -/
def editSpan? (d : Document) (e : TextEdit) : Option Span :=
  match d.offsetAt e.range.start, d.offsetAt e.range.stop with
  | .ok start, .ok stop => some (if stop < start then ⟨start, start⟩ else ⟨start, stop⟩)
  | _, _ => none

/-- The text that an edit puts in place of its span. -/
def splice? (d : Document) (e : TextEdit) : Option Splice :=
  (d.editSpan? e).map fun span => ⟨span, e.newText⟩

variable {d : Document} {e : TextEdit} {edits others : List TextEdit} {splices : List Splice}

lemma exists_offsetAt {p : Position} (h : p.line < (lines d.text).length) :
    ∃ offset, d.offsetAt p = .ok offset ∧ offset ≤ d.text.length := by
  have hline : (lines d.text)[p.line]? = some (lines d.text)[p.line] := List.getElem?_eq_getElem h
  exact ⟨_, offsetAt_eq_ok_iff.mpr ⟨_, hline, rfl⟩,
    place_le_length hline (d.unit.reach_le_length _ p.column)⟩

lemma offsetAt_eq_error {p : Position} (h : ¬p.line < (lines d.text).length) :
    ∃ cause, d.offsetAt p = .error cause := by
  refine ⟨.line p.line (lines d.text).length, ?_⟩
  rw [offsetAt, offsetOf, List.getElem?_eq_none (Nat.not_lt.mp h)]
  rfl

/-- An edit on lines that exist stands for a span inside the text. -/
lemma spliceOf_of_hasLines (h : d.HasLines e.range) : ∃ s, d.spliceOf e = .ok s ∧
    d.splice? e = some s ∧ s.span.start ≤ s.span.stop ∧ s.span.stop ≤ d.text.length := by
  obtain ⟨start, hstart, hstartle⟩ := exists_offsetAt h.1
  obtain ⟨stop, hstop, hstople⟩ := exists_offsetAt h.2
  have hspan : d.spanAt e.range = .ok ⟨start, stop⟩ := by
    rw [spanAt, hstart, hstop]
    rfl
  have hsplice : d.spliceOf e = .ok ⟨⟨start, max start stop⟩, e.newText⟩ := by
    rw [spliceOf, hspan]
    rfl
  refine ⟨_, hsplice, ?_, Nat.le_max_left .., Nat.max_le.mpr ⟨hstartle, hstople⟩⟩
  rw [splice?, editSpan?, hstart, hstop]
  dsimp only
  split_ifs with hinverted
  · rw [Nat.max_eq_left (Nat.le_of_lt hinverted)]
    rfl
  · rw [Nat.max_eq_right (Nat.not_lt.mp hinverted)]
    rfl

lemma spliceOf_of_not_hasLines (h : ¬d.HasLines e.range) :
    ∃ cause, d.spliceOf e = .error (.badLocation cause) := by
  suffices hspan : ∃ cause, d.spanAt e.range = .error cause by
    obtain ⟨cause, hcause⟩ := hspan
    refine ⟨cause, ?_⟩
    rw [spliceOf, hcause]
    rfl
  rw [HasLines, not_and_or] at h
  by_cases hstart : e.range.start.line < (lines d.text).length
  · obtain ⟨start, hoffset, -⟩ := exists_offsetAt hstart
    obtain ⟨cause, hcause⟩ := offsetAt_eq_error (h.resolve_left (not_not.mpr hstart))
    refine ⟨cause, ?_⟩
    rw [spanAt, hoffset, hcause]
    rfl
  · obtain ⟨cause, hcause⟩ := offsetAt_eq_error hstart
    refine ⟨cause, ?_⟩
    rw [spanAt, hcause]
    rfl

/-- Edits on lines that exist stand for spans inside the text, one after the other. -/
lemma mapM_spliceOf (h : ∀ e ∈ edits, d.HasLines e.range) : ∃ splices,
    edits.mapM d.spliceOf = .ok splices ∧
    List.Forall₂ (fun e s => d.splice? e = some s) edits splices ∧
      ∀ s ∈ splices, s.span.start ≤ s.span.stop ∧ s.span.stop ≤ d.text.length := by
  induction edits with
  | nil => exact ⟨[], rfl, .nil, nofun⟩
  | cons e more ih =>
      obtain ⟨s, hs, hstands, hinside⟩ := spliceOf_of_hasLines (h e (List.mem_cons_self ..))
      obtain ⟨rest, hrest, hall, hrestinside⟩ := ih fun e' he' => h e' (List.mem_cons_of_mem e he')
      refine ⟨s :: rest, ?_, .cons hstands hall, ?_⟩
      · rw [List.mapM_cons, hs, hrest]
        rfl
      · intro t ht
        rcases List.mem_cons.mp ht with rfl | ht
        · exact hinside
        · exact hrestinside t ht

lemma mapM_spliceOf_eq_error (h : ∃ e ∈ edits, ¬d.HasLines e.range) :
    ∃ cause, edits.mapM d.spliceOf = .error (.badLocation cause) := by
  induction edits with
  | nil =>
      obtain ⟨e, he, -⟩ := h
      cases he
  | cons e more ih =>
      by_cases hlines : d.HasLines e.range
      · obtain ⟨s, hs, -⟩ := spliceOf_of_hasLines hlines
        have hmore : ∃ e ∈ more, ¬d.HasLines e.range := by
          obtain ⟨e', he', hno⟩ := h
          rcases List.mem_cons.mp he' with rfl | he'
          · exact absurd hlines hno
          · exact ⟨e', he', hno⟩
        obtain ⟨cause, hcause⟩ := ih hmore
        refine ⟨cause, ?_⟩
        rw [List.mapM_cons, hs, hcause]
        rfl
      · obtain ⟨cause, hcause⟩ := spliceOf_of_not_hasLines hlines
        refine ⟨cause, ?_⟩
        rw [List.mapM_cons, hcause]
        rfl

lemma eq_filterMap_splice? (h : List.Forall₂ (fun e s => d.splice? e = some s) edits splices) :
    splices = edits.filterMap d.splice? := by
  induction h with
  | nil => rfl
  | cons hs _ ih => rw [List.filterMap_cons_some hs, ← ih]

/-- The splices of a span are those of the edits that stand for it. -/
lemma filter_splices (h : List.Forall₂ (fun e s => d.splice? e = some s) edits splices)
    (span : Span) :
    splices.filter (·.span = span) =
      (edits.filter (d.editSpan? · = some span)).filterMap d.splice? := by
  rw [eq_filterMap_splice? h, List.filter_filterMap, List.filterMap_filter]
  congr 1
  funext e
  rw [splice?]
  cases hown : d.editSpan? e with
  | none => simp
  | some own => by_cases hsame : own = span <;> simp [hsame]

end Document

/-! ## Splices that overlap -/

/-- Whether there are two splices of which the one that stands ahead of the other, or alike, ends
behind where the other begins. -/
def Overlapping (splices : List Splice) : Prop :=
  ∃ s t : Splice, [s, t].Subperm splices ∧ s.span.notAfter t.span = true ∧
    t.span.start < s.span.stop

section Overlaps

variable {splices sorted : List Splice}

lemma Overlapping.perm (h : sorted.Perm splices) : Overlapping sorted ↔ Overlapping splices := by
  constructor
  · rintro ⟨s, t, hboth, hst⟩
    exact ⟨s, t, hboth.trans h.subperm, hst⟩
  · rintro ⟨s, t, hboth, hst⟩
    exact ⟨s, t, hboth.trans h.symm.subperm, hst⟩

/-- Splices in order do not overlap exactly if each ends before all behind it begin. -/
lemma not_overlapping_iff (hsorted : sorted.Pairwise fun s t => s.span.notAfter t.span = true) :
    ¬Overlapping sorted ↔ sorted.Pairwise fun s t => s.span.stop ≤ t.span.start := by
  rw [List.pairwise_iff_forall_sublist] at hsorted ⊢
  constructor
  · intro hnone s t hst
    by_contra hlt
    exact hnone ⟨s, t, hst.subperm, hsorted hst, Nat.not_le.mp hlt⟩
  · rintro hapart ⟨s, t, ⟨both, hperm, hsub⟩, hordered, hlt⟩
    rcases List.perm_pair.mp hperm with rfl | rfl
    · exact absurd (hapart hsub) (Nat.not_le.mpr hlt)
    · -- only splices that stand alike come in both orders
      have hsame := Span.notAfter_antisymm _ _ hordered (hsorted hsub)
      have := hapart hsub
      rw [hsame] at hlt this
      omega

/-- Looking at neighbours is enough to find an overlap. -/
lemma firstOverlap?_eq_none_iff (hspans : ∀ s ∈ sorted, s.span.start ≤ s.span.stop) :
    firstOverlap? sorted = none ↔ sorted.Pairwise fun s t => s.span.stop ≤ t.span.start := by
  induction sorted with
  | nil => simp [firstOverlap?]
  | cons s more ih =>
      have hmore := ih fun t ht => hspans t (List.mem_cons_of_mem s ht)
      cases more with
      | nil => simp [firstOverlap?]
      | cons t rest =>
          have ht := hspans t (by simp)
          rw [firstOverlap?, List.pairwise_cons]
          split_ifs with hlt
          · refine iff_of_false nofun fun h => ?_
            have := h.1 t (List.mem_cons_self ..)
            omega
          · rw [hmore]
            refine ⟨fun h => ⟨fun u hu => ?_, h⟩, And.right⟩
            rcases List.mem_cons.mp hu with rfl | hu
            · omega
            · have := (List.pairwise_cons.mp h).1 u hu
              omega

end Overlaps

/-! ## The spliced text -/

/-- Whether splices are in order, those that stand alike in the order in which they were given. -/
structure Arranges (splices sorted : List Splice) : Prop where
  perm : sorted.Perm splices
  ordered : sorted.Pairwise fun s t => s.span.notAfter t.span = true
  stable : ∀ span, sorted.filter (·.span = span) = splices.filter (·.span = span)

lemma arranges_mergeSort (splices : List Splice) :
    Arranges splices (splices.mergeSort fun s t => s.span.notAfter t.span) where
  perm := List.mergeSort_perm splices _
  ordered := List.pairwise_mergeSort (fun s t u => Span.notAfter_trans s.span t.span u.span)
    (fun s t => Span.notAfter_total s.span t.span) splices
  stable := filter_mergeSort Span.notAfter_trans Span.notAfter_total splices

/-- What becomes of the text from an offset on when spans of it are replaced.  In front of a span a
text is kept, the old text of the span gives way to the new one, and behind the last span all is
kept. -/
inductive Spliced : (offset : Nat) → (text : List Char) → List Splice → (result : List Char) → Prop
  | kept {offset text} : Spliced offset text [] text
  | replaced {offset kept old text more result} {s : Splice}
      (start : s.span.start = offset + kept.length) (stop : s.span.stop = s.span.start + old.length)
      (behind : Spliced s.span.stop text more result) :
      Spliced offset (kept ++ (old ++ text)) (s :: more) (kept ++ (s.newText.toList ++ result))

section Splicing

variable {offset : Nat} {text : List Char} {sorted : List Splice}

/-- The text that is made from the first splice to the last is the spliced one. -/
lemma spliced_spliceText (hspans : ∀ s ∈ sorted, s.span.start ≤ s.span.stop ∧
      s.span.stop ≤ offset + text.length)
    (hbehind : ∀ s ∈ sorted, offset ≤ s.span.start)
    (hapart : sorted.Pairwise fun s t => s.span.stop ≤ t.span.start) :
    Spliced offset text sorted (spliceText offset text sorted) := by
  induction sorted generalizing offset text with
  | nil => exact .kept
  | cons s more ih =>
      obtain ⟨hfirst, hmore⟩ := List.pairwise_cons.mp hapart
      obtain ⟨hordered, hinside⟩ := hspans s (List.mem_cons_self ..)
      have hoffset := hbehind s (List.mem_cons_self ..)
      have hinsideRest : ∀ t ∈ more, t.span.start ≤ t.span.stop ∧
          t.span.stop ≤ s.span.stop + (text.drop (s.span.stop - offset)).length := by
        intro t ht
        obtain ⟨htordered, htinside⟩ := hspans t (List.mem_cons_of_mem s ht)
        rw [List.length_drop]
        omega
      have hrest := ih hinsideRest hfirst hmore
      -- the text is cut where the span begins and where it ends
      have hcut : text = text.take (s.span.start - offset) ++
          ((text.drop (s.span.start - offset)).take (s.span.stop - s.span.start) ++
            text.drop (s.span.stop - offset)) := by
        have hlength : s.span.stop - offset =
            (s.span.start - offset) + (s.span.stop - s.span.start) := by
          omega
        rw [hlength, ← List.drop_drop, List.take_append_drop, List.take_append_drop]
      nth_rewrite 1 [hcut]
      rw [spliceText, List.append_assoc]
      refine .replaced ?_ ?_ hrest
      · rw [List.length_take]
        omega
      · rw [List.length_take, List.length_drop]
        omega

/-- A text with one splice applied. -/
def Splice.applied (s : Splice) (text : List Char) : List Char :=
  text.take s.span.start ++ (s.newText.toList ++ text.drop s.span.stop)

/-- **From the last to the first.**  Splices that are applied one after the other from behind meet
the spans that they were made for, since what is ahead of a span has not changed by then. -/
theorem spliceText_eq_foldr (hspans : ∀ s ∈ sorted, s.span.start ≤ s.span.stop ∧
      s.span.stop ≤ text.length)
    (hbehind : ∀ s ∈ sorted, offset ≤ s.span.start)
    (hapart : sorted.Pairwise fun s t => s.span.stop ≤ t.span.start) :
    sorted.foldr Splice.applied text =
      text.take offset ++ spliceText offset (text.drop offset) sorted := by
  induction sorted generalizing offset with
  | nil => exact (List.take_append_drop offset text).symm
  | cons s more ih =>
      obtain ⟨hfirst, hmore⟩ := List.pairwise_cons.mp hapart
      obtain ⟨hordered, hinside⟩ := hspans s (List.mem_cons_self ..)
      have hstart := hbehind s (List.mem_cons_self ..)
      have hlength : (text.take s.span.stop).length = s.span.stop := by
        rw [List.length_take]
        omega
      have htake : text.take s.span.start =
          text.take offset ++ (text.drop offset).take (s.span.start - offset) := by
        rw [← List.take_add, Nat.add_sub_cancel' hstart]
      rw [List.foldr_cons, ih (fun t ht => hspans t (List.mem_cons_of_mem s ht)) hfirst hmore,
        Splice.applied, List.take_append_of_le_length (by omega), List.take_take,
        Nat.min_eq_left hordered, List.drop_left' hlength, htake, spliceText, List.drop_drop,
        Nat.add_sub_cancel' (Nat.le_trans hstart hordered), List.append_assoc, List.append_assoc]

end Splicing

/-! ## Applying edits -/

namespace Document

variable {d : Document} {edits : List TextEdit} {splices : List Splice}

/-- Edits are applied if their splices do not overlap. -/
lemma applyEdits_of_apart (hmap : edits.mapM d.spliceOf = .ok splices)
    (hspans : ∀ s ∈ splices, s.span.start ≤ s.span.stop) (h : ¬Overlapping splices) :
    d.applyEdits edits = .ok (String.ofList (spliceText 0 d.text
      (splices.mergeSort fun s t => s.span.notAfter t.span))) := by
  obtain ⟨hperm, hordered, -⟩ := arranges_mergeSort splices
  rw [← Overlapping.perm hperm, not_overlapping_iff hordered,
    ← firstOverlap?_eq_none_iff fun s hs => hspans s (hperm.mem_iff.mp hs)] at h
  rw [applyEdits, hmap]
  dsimp only [bind, Except.bind]
  rw [h]
  rfl

lemma applyEdits_of_overlapping (hmap : edits.mapM d.spliceOf = .ok splices)
    (hspans : ∀ s ∈ splices, s.span.start ≤ s.span.stop) (h : Overlapping splices) :
    ∃ first second, d.applyEdits edits = .error (.overlappingEdits first second) := by
  obtain ⟨hperm, hordered, -⟩ := arranges_mergeSort splices
  rw [← Overlapping.perm hperm, ← not_not (a := Overlapping _), not_overlapping_iff hordered,
    ← firstOverlap?_eq_none_iff fun s hs => hspans s (hperm.mem_iff.mp hs)] at h
  obtain ⟨⟨first, second⟩, hfound⟩ := Option.ne_none_iff_exists'.mp h
  refine ⟨first, second, ?_⟩
  rw [applyEdits, hmap]
  dsimp only [bind, Except.bind]
  rw [hfound]
  rfl

/-- Only the order of edits that stand for the same span matters. -/
lemma applyEdits_of_perm {others : List TextEdit} (h : ∀ e ∈ edits, d.HasLines e.range)
    (hperm : others.Perm edits) (hsame : ∀ span, others.filter (d.editSpan? · = some span) =
      edits.filter (d.editSpan? · = some span)) : d.applyEdits others = d.applyEdits edits := by
  obtain ⟨splices, hmap, hall, -⟩ := mapM_spliceOf h
  obtain ⟨splices', hmap', hall', -⟩ := mapM_spliceOf fun e he => h e (hperm.mem_iff.mp he)
  have hsorted : (splices'.mergeSort fun s t => s.span.notAfter t.span) =
      splices.mergeSort fun s t => s.span.notAfter t.span := by
    refine eq_of_filter_eq Span.notAfter_antisymm (arranges_mergeSort splices').ordered
      (arranges_mergeSort splices).ordered fun span => ?_
    rw [(arranges_mergeSort splices').stable, (arranges_mergeSort splices).stable,
      filter_splices hall', filter_splices hall, hsame]
  rw [applyEdits, applyEdits, hmap, hmap']
  dsimp only [bind, Except.bind]
  rw [hsorted]

/-- **Text edits are spliced into a text.**  Applying edits fails for a bad location if some line
does not exist.  Otherwise each edit stands for a span, and applying them fails for an overlap
exactly if two of the spans overlap.  Otherwise the spans are replaced in their order, those that
stand alike in the order in which they were given, and all text outside of them stays.  Exchanging
edits that stand for different spans makes no difference. -/
theorem applyEdits_exact (d : Document) (edits : List TextEdit) :
    ((∃ e ∈ edits, ¬d.HasLines e.range) →
      ∃ cause, d.applyEdits edits = .error (.badLocation cause)) ∧
    ((∀ e ∈ edits, d.HasLines e.range) → ∃ splices,
      List.Forall₂ (fun e s => d.splice? e = some s) edits splices ∧
      ((∃ first second, d.applyEdits edits = .error (.overlappingEdits first second)) ↔
        Overlapping splices) ∧
      (¬Overlapping splices → ∃ sorted result, Arranges splices sorted ∧
        Spliced 0 d.text sorted result ∧ d.applyEdits edits = .ok (String.ofList result)) ∧
      ∀ others, others.Perm edits →
        (∀ span, others.filter (d.editSpan? · = some span) =
          edits.filter (d.editSpan? · = some span)) →
        d.applyEdits others = d.applyEdits edits) := by
  refine ⟨fun h => ?_, fun h => ?_⟩
  · obtain ⟨cause, hcause⟩ := mapM_spliceOf_eq_error h
    refine ⟨cause, ?_⟩
    rw [applyEdits, hcause]
    rfl
  · obtain ⟨splices, hmap, hall, hinside⟩ := mapM_spliceOf h
    have hspans : ∀ s ∈ splices, s.span.start ≤ s.span.stop := fun s hs => (hinside s hs).1
    refine ⟨splices, hall, ⟨?_, applyEdits_of_overlapping hmap hspans⟩, fun hapart => ?_,
      fun others hperm hsame => applyEdits_of_perm h hperm hsame⟩
    · rintro ⟨first, second, herror⟩
      by_contra hapart
      rw [applyEdits_of_apart hmap hspans hapart] at herror
      cases herror
    · have harranged := arranges_mergeSort splices
      refine ⟨_, _, harranged, spliced_spliceText (fun s hs => ?_) (fun _ _ => Nat.zero_le _) ?_,
        applyEdits_of_apart hmap hspans hapart⟩
      · rw [Nat.zero_add]
        exact hinside s (harranged.perm.mem_iff.mp hs)
      · rwa [← not_overlapping_iff harranged.ordered, Overlapping.perm harranged.perm]

/-- A document with two tags. -/
def tagsDocument : Document :=
  .parse default 1 .utf16 "<r></r>".toList

/-- Two edits that replace what stands side by side, and two insertions between the tags. -/
def adjacentEdits : List TextEdit :=
  [⟨⟨⟨0, 3⟩, ⟨0, 3⟩⟩, "a"⟩, ⟨⟨⟨0, 1⟩, ⟨0, 2⟩⟩, "s"⟩, ⟨⟨⟨0, 3⟩, ⟨0, 3⟩⟩, "b"⟩,
    ⟨⟨⟨0, 2⟩, ⟨0, 3⟩⟩, " x=''>"⟩]

/-- The splices of these edits in their order. -/
def adjacentSplices : List Splice :=
  [⟨⟨1, 2⟩, "s"⟩, ⟨⟨2, 3⟩, " x=''>"⟩, ⟨⟨3, 3⟩, "a"⟩, ⟨⟨3, 3⟩, "b"⟩]

/-- Two edits of which one begins inside the other. -/
def crossingEdits : List TextEdit :=
  [⟨⟨⟨0, 2⟩, ⟨0, 7⟩⟩, ""⟩, ⟨⟨⟨0, 0⟩, ⟨0, 7⟩⟩, ""⟩]

lemma applyEdits_adjacent : tagsDocument.applyEdits adjacentEdits = .ok "<s x=''>ab</r>" := by
  have hmap : adjacentEdits.mapM tagsDocument.spliceOf =
      .ok [⟨⟨3, 3⟩, "a"⟩, ⟨⟨1, 2⟩, "s"⟩, ⟨⟨3, 3⟩, "b"⟩, ⟨⟨2, 3⟩, " x=''>"⟩] := by
    decide +kernel
  have hsort : ([⟨⟨3, 3⟩, "a"⟩, ⟨⟨1, 2⟩, "s"⟩, ⟨⟨3, 3⟩, "b"⟩, ⟨⟨2, 3⟩, " x=''>"⟩].mergeSort
      fun s t : Splice => s.span.notAfter t.span) = adjacentSplices := by
    cbv
  rw [applyEdits, hmap]
  dsimp only [bind, Except.bind]
  rw [hsort]
  decide +kernel

lemma overlapping_crossing {splices : List Splice}
    (h : List.Forall₂ (fun e s => tagsDocument.splice? e = some s) crossingEdits splices) :
    Overlapping splices := by
  obtain ⟨s, _, hs, hmore, rfl⟩ := List.forall₂_cons_left_iff.mp h
  obtain ⟨t, _, ht, hnone, rfl⟩ := List.forall₂_cons_left_iff.mp hmore
  rw [List.forall₂_nil_left_iff.mp hnone]
  obtain rfl : s = ⟨⟨2, 7⟩, ""⟩ := Option.some.inj (hs.symm.trans (by decide +kernel))
  obtain rfl : t = ⟨⟨0, 7⟩, ""⟩ := Option.some.inj (ht.symm.trans (by decide +kernel))
  exact ⟨_, _, (List.Perm.swap ..).subperm, by decide, by decide⟩

theorem applyEdits_exact_adjacent :
    (∃ splices sorted result,
      List.Forall₂ (fun e s => tagsDocument.splice? e = some s) adjacentEdits splices ∧
      ¬Overlapping splices ∧ Arranges splices sorted ∧ Spliced 0 tagsDocument.text sorted result ∧
      tagsDocument.applyEdits adjacentEdits = .ok (String.ofList result) ∧
      String.ofList result = "<s x=''>ab</r>") ∧
    (∃ first second,
      tagsDocument.applyEdits crossingEdits = .error (.overlappingEdits first second)) ∧
    ∃ cause, tagsDocument.applyEdits [⟨⟨⟨0, 0⟩, ⟨1, 0⟩⟩, ""⟩] = .error (.badLocation cause) := by
  have hlines : ∀ e ∈ adjacentEdits ++ crossingEdits, tagsDocument.HasLines e.range := by
    unfold HasLines
    decide +kernel
  refine ⟨?_, ?_, (applyEdits_exact tagsDocument _).1 ⟨_, List.mem_singleton_self _, ?_⟩⟩
  · obtain ⟨splices, hall, hoverlap, hresult, -⟩ := (applyEdits_exact tagsDocument adjacentEdits).2
      fun e he => hlines e (List.mem_append_left _ he)
    have hapart : ¬Overlapping splices := by
      rw [← hoverlap, applyEdits_adjacent]
      rintro ⟨_, _, ⟨⟩⟩
    obtain ⟨sorted, result, harranged, hspliced, happlied⟩ := hresult hapart
    exact ⟨splices, sorted, result, hall, hapart, harranged, hspliced, happlied,
      Except.ok.inj (happlied.symm.trans applyEdits_adjacent)⟩
  · obtain ⟨splices, hall, hoverlap, -⟩ := (applyEdits_exact tagsDocument crossingEdits).2
      fun e he => hlines e (List.mem_append_right _ he)
    exact hoverlap.mpr (overlapping_crossing hall)
  · unfold HasLines
    decide +kernel

end Document

end XmlAdvisor
