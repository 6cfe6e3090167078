import XmlAdvisor.Document
import Mathlib.Tactic.Lemma
import Mathlib.Tactic.SplitIfs

/-!
# Positions lead back to their offsets

An offset falls into one line of the text, and the column of its position counts the units before it
on that line.  Walking along the line until these units are used up leads back to the offset: every
character takes at least one unit, and only the last character of a break is out of reach, behind
which no offset of the line lies.

* `ColumnUnit.reach_measure` — the way along one line.
* `Among` — how a position lies among lines, an invariant of the walk over them.
* **`offsetOf_positionOf`** — the position of an offset leads back to it.
-/

namespace XmlAdvisor

/-! ## Along a line -/

namespace ColumnUnit

variable (unit : ColumnUnit)

/-- Every character takes at least one unit. -/
lemma width_pos (c : Char) : 0 < unit.width c := by
  cases unit with
  | utf8 => exact c.utf8Size_pos
  | utf16 =>
      rw [width]
      split_ifs <;> omega
  | utf32 => exact Nat.one_pos

lemma measure_cons (c : Char) (cs : List Char) :
    unit.measure (c :: cs) = unit.width c + unit.measure cs := rfl

/-- The place at which the first `k` characters are used up is behind them. -/
lemma reach_measure (cs : List Char) (k : Nat) (h : k ≤ cs.length) :
    unit.reach cs (unit.measure (cs.take k)) = k := by
  induction cs generalizing k with
  | nil =>
      have hk : k = 0 := by simpa using h
      rw [hk]
      rfl
  | cons c cs ih =>
      cases k with
      | zero => simp [measure, reach]
      | succ k =>
          have hc := unit.width_pos c
          have hk : k ≤ cs.length := by simpa using h
          rw [List.take_succ_cons, measure_cons, reach, if_neg (by omega), Nat.add_sub_cancel_left,
            ih k hk]
          omega

end ColumnUnit

/-- What can be addressed on a line is the line without at most its last character. -/
lemma addressable_leading (line : List Char) :
    addressable line <+: line ∧ line.length ≤ (addressable line).length + 1 := by
  rw [addressable]
  split
  · split_ifs
    · exact ⟨List.dropLast_prefix line, by rw [List.length_dropLast]; omega⟩
    · exact ⟨List.prefix_rfl, Nat.le_succ _⟩
  · exact ⟨List.prefix_rfl, Nat.le_succ _⟩

/-- The last line of a text does not end in a break. -/
lemma isLineBreak_last (text line : List Char) (h : (lines text).getLast? = some line)
    (c : Char) (hc : line.getLast? = some c) : isLineBreak c = false := by
  fun_induction lines text generalizing line with
  | case1 =>
      cases h
      cases hc
  | case2 rest ih =>
      rw [List.getLast?_cons_of_ne_nil (lines_ne_nil rest)] at h
      exact ih line h hc
  | case3 d rest hcr hbreak ih =>
      rw [List.getLast?_cons_of_ne_nil (lines_ne_nil rest)] at h
      exact ih line h hc
  | case4 d rest hcr hbreak hnil ih => exact absurd hnil (lines_ne_nil rest)
  | case5 d rest hcr hbreak head more hlines ih =>
      rw [hlines] at ih
      cases more with
      | nil =>
          cases h
          cases head with
          | nil =>
              cases hc
              simpa using hbreak
          | cons d' head => exact ih (d' :: head) rfl hc
      | cons next more => exact ih line h hc

lemma addressable_of_last {text line : List Char} (h : (lines text).getLast? = some line) :
    addressable line = line := by
  rw [addressable]
  split
  · rename_i c hc
    rw [isLineBreak_last text line h c hc]
    rfl
  · rfl

/-! ## Among lines -/

/-- Whether a position, told among lines of which the first has number `line`, is that of the offset
`offset` from the start of these lines: it counts the units before the offset on a line, and the
offset is not behind what can be addressed there. -/
def Among (unit : ColumnUnit) (line : Nat) (ls : List (List Char)) (offset : Nat) (p : Position) :
    Prop :=
  ∃ i l k, ls[i]? = some l ∧ p = ⟨line + i, unit.measure (l.take k)⟩ ∧
    k ≤ (addressable l).length ∧ offset = ((ls.take i).map List.length).foldr (· + ·) 0 + k

/-- The position that is found among lines is that of the offset. -/
lemma among_positionAmong (unit : ColumnUnit) (ls : List (List Char)) (line offset : Nat)
    (hlast : ∀ l, ls.getLast? = some l → addressable l = l) {p : Position}
    (h : positionAmong unit line ls offset = some p) : Among unit line ls offset p := by
  induction ls generalizing line offset with
  | nil => cases h
  | cons head rest ih =>
      cases rest with
      | nil =>
          rw [positionAmong] at h
          split_ifs at h with hle
          cases h
          refine ⟨0, head, offset, rfl, rfl, ?_, by simp⟩
          rw [hlast head rfl]
          exact hle
      | cons next more =>
          unfold positionAmong at h
          split_ifs at h with hlt
          · cases h
            have hlong := (addressable_leading head).2
            exact ⟨0, head, offset, rfl, rfl, by omega, by simp⟩
          · have hrest : ∀ l, (next :: more).getLast? = some l → addressable l = l := by
              intro l hl
              exact hlast l (by rwa [List.getLast?_cons_of_ne_nil (List.cons_ne_nil next more)])
            obtain ⟨i, l, k, hl, rfl, hk, hoffset⟩ := ih (line + 1) (offset - head.length) hrest h
            refine ⟨i + 1, l, k, hl, by rw [Nat.add_assoc, Nat.add_comm 1 i], hk, ?_⟩
            simp only [List.take_succ_cons, List.map_cons, List.foldr_cons]
            omega

/-- Walking along the line of a position leads to the offset. -/
lemma Among.offsetOf {unit : ColumnUnit} {text : List Char} {offset : Nat} {p : Position}
    (h : Among unit 0 (lines text) offset p) : offsetOf unit text p = some offset := by
  obtain ⟨i, l, k, hl, rfl, hk, rfl⟩ := h
  obtain ⟨hleading, -⟩ := addressable_leading l
  have htake : l.take k = (addressable l).take k := by
    obtain ⟨broken, hbroken⟩ := hleading
    rw [← hbroken, List.take_append_of_le_length]
    · rw [hbroken]
    · exact hk
  rw [XmlAdvisor.offsetOf, Nat.zero_add, hl, Option.map_some, htake, unit.reach_measure _ k hk]
  rfl

/-- **Positions lead back to their offsets.** -/
theorem offsetOf_positionOf {unit : ColumnUnit} {text : List Char} {offset : Nat} {p : Position}
    (h : positionOf unit text offset = some p) : offsetOf unit text p = some offset :=
  (among_positionAmong unit (lines text) 0 offset (fun _ => addressable_of_last) h).offsetOf

/-- What comes of two steps comes of the second one, from what the first one gave. -/
lemma exists_of_bind_ok {ε α β : Type} {v : Except ε α} {f : α → Except ε β} {b : β}
    (h : v >>= f = .ok b) : ∃ a, v = .ok a ∧ f a = .ok b := by
  cases v with
  | error e => cases h
  | ok a => exact ⟨a, rfl, h⟩

namespace Document

variable {d : Document}

/-- The position of an offset leads back to it. -/
lemma offsetAt_positionAt {offset : Nat} {p : Position} (h : d.positionAt offset = .ok p) :
    d.offsetAt p = .ok offset := by
  rw [positionAt] at h
  split at h
  · rename_i q hq
    cases h
    rw [offsetAt, offsetOf_positionOf hq]
  · cases h

/-- The range of a span begins and ends at the positions of its ends. -/
lemma rangeAt_eq_ok {span : Span} {r : Range} (h : d.rangeAt span = .ok r) :
    d.positionAt span.start = .ok r.start ∧ d.positionAt span.stop = .ok r.stop := by
  rw [rangeAt] at h
  obtain ⟨p, hstart, h⟩ := exists_of_bind_ok h
  obtain ⟨q, hstop, h⟩ := exists_of_bind_ok h
  cases h
  exact ⟨hstart, hstop⟩

/-- The range of a span leads back to it. -/
lemma spanAt_rangeAt {span : Span} {r : Range} (h : d.rangeAt span = .ok r) :
    d.spanAt r = .ok span := by
  obtain ⟨hstart, hstop⟩ := rangeAt_eq_ok h
  rw [spanAt, offsetAt_positionAt hstart, offsetAt_positionAt hstop]
  rfl

/-- A range is that of one span. -/
lemma eq_of_rangeAt {span span' : Span} {range : Range} (h : d.rangeAt span = .ok range)
    (h' : d.rangeAt span' = .ok range) : span = span' :=
  Except.ok.inj ((spanAt_rangeAt h).symm.trans (spanAt_rangeAt h'))

end Document

end XmlAdvisor
