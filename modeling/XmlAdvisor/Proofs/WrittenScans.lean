import XmlAdvisor.Proofs.QualifiedNames
import XmlAdvisor.Proofs.WrittenTrees
import Mathlib.Data.List.Infix

/-!
# Scanning what is written

What a scan reads of a text that it stands before is what was written there, and it goes on behind
that. Names and blanks go on as long as they can, so what comes behind them must not; contents go on
until the text that ends them, which must not occur before.

* `Scan.content_until` — contents are read up to the text that ends them.
* `Scan.qualifiedName_append` — a name is read up to what is no part of one.
* `Scan.comment_append`, `instruction_append`, `cdata_append`, `text_append` — the leaves.
* `Scan.tagOpen_append`, `tagPart_attribute`, `endTag_append` — the tags.
-/

namespace XmlAdvisor

/-! ## Texts inside others -/

/-- A text occurs where it is a part. -/
lemma occursIn_iff (needle cs : List Char) : occursIn needle cs = true ↔ needle <:+: cs := by
  induction cs with
  | nil => simp [occursIn]
  | cons c cs ih =>
      rw [occursIn, Bool.or_eq_true, ih, List.isPrefixOf_iff_prefix, List.infix_cons_iff]

/-- A text that ends with a mark does not begin in what stands before it, if it does not occur
there. -/
lemma not_prefix_append {q v rest : List Char} {x : Char} (hx : x ∉ q) (hv : v ≠ [])
    (hnot : ¬q ++ [x] <:+: v) : ¬q ++ [x] <+: v ++ (q ++ [x] ++ rest) := by
  intro hbegins
  rcases Nat.le_total (q ++ [x]).length v.length with hle | hle
  · exact hnot (List.prefix_of_prefix_length_le hbegins (List.prefix_append ..) hle).isInfix
  · -- the mark is found in itself, but further to the front
    obtain ⟨w, hw⟩ := List.prefix_of_prefix_length_le (List.prefix_append v _) hbegins hle
    have hlonger : 0 < v.length := List.length_pos_of_ne_nil hv
    have hlength := congrArg List.length hw
    rw [List.length_append, List.length_append, List.length_singleton] at hlength
    rw [← hw, List.prefix_append_right_inj, hw, List.append_assoc] at hbegins
    have hinside : w <+: q := by
      refine List.prefix_of_prefix_length_le hbegins (List.prefix_append ..) ?_
      omega
    rcases List.eq_nil_or_concat w with rfl | ⟨w', y, rfl⟩
    · rw [List.append_nil] at hw
      exact hnot (hw ▸ List.infix_rfl)
    · rw [List.concat_eq_append, ← List.append_assoc] at hw
      have hlast := (List.append_inj' hw rfl).2
      rw [List.concat_eq_append, hlast] at hinside
      exact hx (hinside.subset (by simp))

namespace Scan

variable {α β : Type} {o : Nat} {cs rest : List Char}

/-! ## Reading steps -/

lemma bind_of_ok {m : Scan α} {f : α → Scan β} {c c' : Cursor} {a : α} (h : m c = .ok (a, c')) :
    (m >>= f) c = f a c' := by
  simp only [Bind.bind, StateT.bind, h]
  rfl

lemma advance_append (o : Nat) (cs rest : List Char) :
    (⟨o, cs ++ rest⟩ : Cursor).advance cs.length = ⟨o + cs.length, rest⟩ := by
  simp [Cursor.advance]

lemma skip_append (cs : List Char) :
    skip cs.length ⟨o, cs ++ rest⟩ = .ok ((), ⟨o + cs.length, rest⟩) := by
  rw [← advance_append]
  rfl

lemma skip_literal {s : String} (h : s.toList = cs) :
    skip s.length ⟨o, cs ++ rest⟩ = .ok ((), ⟨o + cs.length, rest⟩) := by
  rw [← String.length_toList, h, skip_append]

lemma takeWhile_append {p : Char → Bool} (hcs : cs.all p = true)
    (hrest : rest.head?.any p = false) : (cs ++ rest).takeWhile p = cs := by
  rw [List.takeWhile_append_of_pos (List.all_eq_true.mp hcs)]
  cases rest with
  | nil => simp
  | cons c more =>
      have hc : p c = false := hrest
      simp [hc]

lemma run_append {p : Char → Bool} (hcs : cs.all p = true) (hrest : rest.head?.any p = false) :
    run p ⟨o, cs ++ rest⟩ = .ok (cs, ⟨o + cs.length, rest⟩) := by
  rw [run, bind_of_ok (a := (⟨o, cs ++ rest⟩ : Cursor)) rfl]
  show (skip ((cs ++ rest).takeWhile p).length >>= fun _ => pure ((cs ++ rest).takeWhile p)) _ = _
  rw [takeWhile_append hcs hrest, bind_of_ok (skip_append cs)]
  rfl

lemma spaces_append (hcs : cs.all isXmlSpace = true) (hrest : rest.head?.any isXmlSpace = false) :
    spaces ⟨o, cs ++ rest⟩ = .ok ((), ⟨o + cs.length, rest⟩) := by
  rw [spaces, bind_of_ok (run_append hcs hrest)]
  rfl

lemma literal_append {s : String} (h : s.toList = cs) :
    literal s ⟨o, cs ++ rest⟩ = .ok ((), ⟨o + cs.length, rest⟩) := by
  have hstarts : (⟨o, cs ++ rest⟩ : Cursor).startsWith s = true := by
    simp [Cursor.startsWith, h]
  have hcomes : comesNext s ⟨o, cs ++ rest⟩ = .ok (true, ⟨o, cs ++ rest⟩) := by
    rw [← hstarts]
    rfl
  rw [literal, bind_of_ok hcomes, if_pos rfl, skip_literal h]

lemma char_cons (c : Char) : char c ⟨o, c :: rest⟩ = .ok ((), ⟨o + 1, rest⟩) := by
  rw [char, bind_of_ok (a := some c) rfl]
  show (if c = c then skip 1 else _) _ = _
  rw [if_pos rfl]
  rfl

lemma quote_cons {mark : Char} (h : (mark == '\'' || mark == '"') = true) :
    quote ⟨o, mark :: rest⟩ = .ok (mark, ⟨o + 1, rest⟩) := by
  rw [quote, bind_of_ok (a := some mark) rfl]
  dsimp only
  rw [if_pos h]
  rfl

/-- What is read goes on as long as `last` does not hold. -/
lemma contentUntil_append {last : List Char → Bool} (o : Nat) (hcs : cs.all isDocumentChar = true)
    (hlast : ∀ v, v ≠ [] → v <:+ cs → last (v ++ rest) = false)
    (hrest : rest = [] ∨ rest.head?.any isDocumentChar = true ∧ last rest = true) :
    contentUntil last o (cs ++ rest) = .ok cs := by
  induction cs generalizing o with
  | nil =>
      rcases hrest with rfl | ⟨hhead, hstop⟩
      · rfl
      · cases rest with
        | nil => rfl
        | cons c more =>
            have hc : isDocumentChar c = true := hhead
            rw [List.nil_append, contentUntil, hc, Bool.not_true, if_neg Bool.false_ne_true,
              if_pos hstop]
  | cons c cs ih =>
      rw [List.all_cons, Bool.and_eq_true] at hcs
      have hgo := hlast (c :: cs) (List.cons_ne_nil c cs) List.suffix_rfl
      rw [List.cons_append] at hgo
      rw [List.cons_append, contentUntil, hcs.1, Bool.not_true, if_neg Bool.false_ne_true, hgo,
        if_neg Bool.false_ne_true,
        ih (o + 1) hcs.2 fun v hv hsuffix => hlast v hv (hsuffix.trans (List.suffix_cons c cs))]
      rfl

lemma content_append {last : List Char → Bool} (hcs : cs.all isDocumentChar = true)
    (hlast : ∀ v, v ≠ [] → v <:+ cs → last (v ++ rest) = false)
    (hrest : rest = [] ∨ rest.head?.any isDocumentChar = true ∧ last rest = true) :
    content last ⟨o, cs ++ rest⟩ = .ok (cs, ⟨o + cs.length, rest⟩) := by
  rw [content, bind_of_ok (a := (⟨o, cs ++ rest⟩ : Cursor)) rfl]
  have hread : (contentUntil last o (cs ++ rest) : Except Cause (List Char)) = .ok cs :=
    contentUntil_append o hcs hlast hrest
  have hlift : (liftM (contentUntil last o (cs ++ rest)) : Scan (List Char)) ⟨o, cs ++ rest⟩ =
      .ok (cs, ⟨o, cs ++ rest⟩) := by
    rw [hread]
    rfl
  rw [bind_of_ok hlift, bind_of_ok (skip_append cs)]
  rfl

/-- What is read goes on until the text that ends it. -/
lemma content_until {stop : String} {d q : List Char} {x : Char} (hstop : stop.toList = d)
    (hd : d = q ++ [x]) (hx : x ∉ q) (hhead : d.head?.any isDocumentChar = true)
    (hcs : cs.all isDocumentChar = true) (hnot : occursIn stop.toList cs = false) :
    content (stop.toList.isPrefixOf ·) ⟨o, cs ++ (d ++ rest)⟩ =
      .ok (cs, ⟨o + cs.length, d ++ rest⟩) := by
  refine content_append hcs (fun v hv hsuffix => ?_) (.inr ⟨?_, ?_⟩)
  · rw [← Bool.not_eq_true, occursIn_iff, hstop, hd] at hnot
    rw [← Bool.not_eq_true, List.isPrefixOf_iff_prefix, hstop, hd]
    exact not_prefix_append hx hv fun hoccurs => hnot (hoccurs.trans hsuffix.isInfix)
  · cases d with
    | nil => cases hhead
    | cons c d => exact hhead
  · rw [List.isPrefixOf_iff_prefix, hstop]
    exact List.prefix_append ..

/-! ## Names -/

lemma isNamePart_iff (cs : List Char) : isNamePart cs = true ↔
    cs.head?.any isNameStart = true ∧ cs.all isNameChar = true ∧ ':' ∉ cs := by
  simp [isNamePart, and_assoc]

/-- What is written of a name is all read as a name. -/
lemma all_isNameChar_text {n : QualifiedName} (h : n.isWritten = true) :
    n.text.toList.all isNameChar = true := by
  rw [QualifiedName.isWritten, Bool.and_eq_true, isNamePart_iff] at h
  obtain ⟨⟨-, hlocal, -⟩, hqualifier⟩ := h
  cases hq : n.qualifier with
  | none => rwa [QualifiedName.text_of_none hq]
  | some q =>
      rw [hq, Option.all_some, isNamePart_iff] at hqualifier
      rw [QualifiedName.toList_text_of_qualifier hq, List.all_append, List.all_cons, hqualifier.2.1,
        hlocal]
      decide

/-- What is written of a name begins as a name does. -/
lemma exists_of_isWritten {n : QualifiedName} (h : n.isWritten = true) :
    ∃ c more, n.text.toList = c :: more ∧ isNameStart c = true := by
  have hpart {part : List Char} (hpart : isNamePart part = true) :
      ∃ c more, part = c :: more ∧ isNameStart c = true := by
    cases part with
    | nil => cases hpart
    | cons c more => exact ⟨c, more, rfl, ((isNamePart_iff _).mp hpart).1⟩
  rw [QualifiedName.isWritten, Bool.and_eq_true] at h
  cases hq : n.qualifier with
  | none =>
      rw [QualifiedName.text_of_none hq]
      exact hpart h.1
  | some q =>
      rw [hq, Option.all_some] at h
      obtain ⟨c, more, hchars, hc⟩ := hpart h.2
      exact ⟨c, more ++ ':' :: n.localName.toList,
        by rw [QualifiedName.toList_text_of_qualifier hq, hchars]; rfl, hc⟩

lemma partBegins_of_head {cs : List Char} (h : cs.head?.any isNameStart = true) :
    partBegins cs = true := by
  cases cs with
  | nil => rfl
  | cons c more => exact h

lemma splitAtColon_eq_none (h : ':' ∉ cs) : splitAtColon cs = none := by
  have hcs : ∀ c ∈ cs, (c != ':') = true := fun c hc => by
    rw [bne_iff_ne]
    rintro rfl
    exact h hc
  rw [splitAtColon, List.dropWhile_eq_nil_iff.mpr hcs]

lemma qualifiedName_append {n : QualifiedName} (h : n.isWritten = true)
    (hrest : rest.head?.any isNameChar = false) :
    qualifiedName ⟨o, n.text.toList ++ rest⟩ = .ok (n, ⟨o + n.text.toList.length, rest⟩) := by
  rw [qualifiedName, bind_of_ok (run_append (all_isNameChar_text h) hrest)]
  rw [QualifiedName.isWritten, Bool.and_eq_true, isNamePart_iff] at h
  obtain ⟨⟨hlhead, -, hlcolon⟩, hqualifier⟩ := h
  obtain ⟨qualifier, l⟩ := n
  have hlempty : l.toList.isEmpty = false := by
    cases hl : l.toList with
    | nil => rw [hl] at hlhead; cases hlhead
    | cons => rfl
  have hlcontains : l.toList.contains ':' = false := by simpa using hlcolon
  cases qualifier with
  | none =>
      rw [QualifiedName.text_of_none rfl, splitAtColon_eq_none hlcolon]
      dsimp only
      rw [hlcontains, hlempty, partBegins_of_head hlhead]
      show Except.ok
        (QualifiedName.mk (qualifierOf (String.ofList [])) (String.ofList l.toList), _) = _
      rw [String.ofList_toList]
      rfl
  | some q =>
      rw [Option.all_some, isNamePart_iff] at hqualifier
      obtain ⟨hqhead, -, hqcolon⟩ := hqualifier
      have hqempty : q.isEmpty = false := by
        rw [← Bool.not_eq_true, String.isEmpty_iff]
        rintro rfl
        cases hqhead
      rw [QualifiedName.toList_text_of_qualifier rfl, splitAtColon_append hqcolon]
      dsimp only
      rw [hlcontains, hlempty, partBegins_of_head hlhead, partBegins_of_head hqhead]
      show Except.ok (QualifiedName.mk (qualifierOf (String.ofList q.toList))
        (String.ofList l.toList), _)
        = _
      rw [String.ofList_toList, String.ofList_toList, qualifierOf, hqempty]
      rfl

lemma name_append {s : String} (hhead : s.toList.head?.any isNameStart = true)
    (hs : s.toList.all isNameChar = true) (hrest : rest.head?.any isNameChar = false) :
    name ⟨o, s.toList ++ rest⟩ = .ok (s, ⟨o + s.toList.length, rest⟩) := by
  cases hchars : s.toList with
  | nil => rw [hchars] at hhead; cases hhead
  | cons c more =>
      have hc : isNameStart c = true := by rwa [hchars] at hhead
      have hread : nameOrEnd ⟨o, c :: more ++ rest⟩ =
          .ok (c :: more, ⟨o + (c :: more).length, rest⟩) := by
        rw [nameOrEnd, bind_of_ok (a := some c) rfl]
        show (if isNameStart c = true then run isNameChar else _) _ = _
        rw [if_pos hc, run_append (hchars ▸ hs) hrest]
      rw [name, bind_of_ok hread]
      show Except.ok (String.ofList (c :: more), _) = _
      rw [← hchars, String.ofList_toList]

/-! ## Constructs -/

/-- The span of what is written at an offset. -/
abbrev spanAt (o : Nat) (cs : List Char) : Span :=
  ⟨o, o + cs.length⟩

lemma bind_offset {f : Nat → Scan β} {c : Cursor} : (offset >>= f) c = f c.offset c :=
  rfl

lemma bind_spanFrom {f : Span → Scan β} {start : Nat} {c : Cursor} :
    (spanFrom start >>= f) c = f ⟨start, c.offset⟩ c :=
  rfl

lemma pure_eq (a : α) (c : Cursor) : (pure a : Scan α) c = .ok (a, c) :=
  rfl

lemma occursIn_of_append {p q cs : List Char} (h : occursIn p cs = false) :
    occursIn (p ++ q) cs = false := by
  rw [← Bool.not_eq_true, occursIn_iff] at h ⊢
  exact fun hoccurs => h ((List.prefix_append p q).isInfix.trans hoccurs)

lemma not_isNameChar_of_isXmlSpace {c : Char} (h : isXmlSpace c = true) : isNameChar c = false := by
  simp only [isXmlSpace, Bool.or_eq_true, beq_iff_eq] at h
  rcases h with ((rfl | rfl) | rfl) | rfl <;> decide

lemma comment_append {s : String} (h : (WrittenLeaf.comment s).isMisc = true) :
    comment ⟨o, (WrittenLeaf.comment s).chars ++ rest⟩ =
      .ok (some (.comment s (spanAt o (WrittenLeaf.comment s).chars)),
        ⟨o + (WrittenLeaf.comment s).chars.length, rest⟩) := by
  simp only [WrittenLeaf.isMisc, Bool.and_eq_true, Bool.not_eq_true', bne_iff_ne] at h
  obtain ⟨⟨hcontent, hdashes⟩, hlast⟩ := h
  have hend : (s.toList.getLast? == some '-') = false := beq_eq_false_iff_ne.mpr hlast
  have hopen : "<!--".toList = ['<', '!', '-', '-'] := rfl
  have hclose : "-->".toList = ['-', '-', '>'] := rfl
  have hnot : occursIn "-->".toList s.toList = false := by
    rw [hclose]
    exact occursIn_of_append (q := ['>']) hdashes
  rw [WrittenLeaf.chars, List.append_assoc, List.append_assoc, comment, bind_offset,
    bind_of_ok (skip_literal hopen),
    bind_of_ok (content_until hclose (q := ['-', '-']) rfl (by decide) (by decide) hcontent hnot),
    bind_of_ok (literal_append hclose), hdashes, hend]
  simp only [Bool.false_eq_true, if_false, bind_spanFrom, pure_eq, String.ofList_toList,
    spanAt, List.length_append, Nat.add_assoc]

lemma cdata_append {s : String} (h : (WrittenLeaf.cdata s).isInside = true) :
    cdata ⟨o, (WrittenLeaf.cdata s).chars ++ rest⟩ =
      .ok (some (.cdata s (spanAt o (WrittenLeaf.cdata s).chars)),
        ⟨o + (WrittenLeaf.cdata s).chars.length, rest⟩) := by
  simp only [WrittenLeaf.isInside, Bool.and_eq_true, Bool.not_eq_true'] at h
  obtain ⟨hcontent, hnot⟩ := h
  have hopen : "<![CDATA[".toList = ['<', '!', '[', 'C', 'D', 'A', 'T', 'A', '['] := rfl
  have hclose : "]]>".toList = [']', ']', '>'] := rfl
  rw [WrittenLeaf.chars, List.append_assoc, List.append_assoc, cdata, bind_offset,
    bind_of_ok (skip_literal hopen),
    bind_of_ok (content_until hclose (q := [']', ']']) rfl (by decide) (by decide) hcontent hnot),
    bind_of_ok (literal_append hclose)]
  simp only [bind_spanFrom, pure_eq, String.ofList_toList, spanAt, List.length_append,
    Nat.add_assoc]

/-- The target of an instruction does not go on behind its end. -/
lemma not_isNameChar_behind_target {target data : String} {gap : List Char}
    (h : (WrittenLeaf.instruction target gap data).isMisc = true) (rest : List Char) :
    (gap ++ (data.toList ++ (['?', '>'] ++ rest))).head?.any isNameChar = false := by
  simp only [WrittenLeaf.isMisc, Bool.and_eq_true] at h
  obtain ⟨⟨⟨⟨⟨-, hgap⟩, -⟩, -⟩, -⟩, happart⟩ := h
  cases gap with
  | nil =>
      rw [List.isEmpty_nil, Bool.not_true, Bool.or_false, String.isEmpty_iff] at happart
      rw [happart]
      rfl
  | cons c more =>
      rw [List.all_cons, Bool.and_eq_true] at hgap
      exact not_isNameChar_of_isXmlSpace hgap.1

/-- The data of an instruction is what is behind the blanks after its target. -/
lemma instruction_append {target data : String} {gap : List Char}
    (h : (WrittenLeaf.instruction target gap data).isMisc = true) :
    instruction ⟨o, (WrittenLeaf.instruction target gap data).chars ++ rest⟩ =
      .ok (some (.instruction target (if data.isEmpty then none else some data)
          (spanAt o (WrittenLeaf.instruction target gap data).chars)),
        ⟨o + (WrittenLeaf.instruction target gap data).chars.length, rest⟩) := by
  have hparts := h
  simp only [WrittenLeaf.isMisc, Bool.and_eq_true, Bool.not_eq_true'] at hparts
  obtain ⟨⟨⟨⟨⟨⟨⟨hhead, htarget⟩, -⟩, hgap⟩, hdata⟩, hnot⟩, hblank⟩, -⟩ := hparts
  have hopen : "<?".toList = ['<', '?'] := rfl
  have hclose : "?>".toList = ['?', '>'] := rfl
  have hbehindGap : (data.toList ++ (['?', '>'] ++ rest)).head?.any isXmlSpace = false := by
    cases hchars : data.toList with
    | nil => rfl
    | cons c more => rwa [hchars] at hblank
  have hempty : data.toList.isEmpty = data.isEmpty := by
    rw [Bool.eq_iff_iff, List.isEmpty_iff, String.isEmpty_iff, String.toList_eq_nil_iff]
  simp only [WrittenLeaf.chars, List.append_assoc]
  rw [instruction, bind_offset, bind_of_ok (skip_literal hopen),
    bind_of_ok (name_append hhead htarget (not_isNameChar_behind_target h rest)),
    bind_of_ok (spaces_append hgap hbehindGap),
    bind_of_ok (content_until hclose (q := ['?']) rfl (by decide) (by decide) hdata hnot),
    bind_of_ok (literal_append hclose)]
  simp only [bind_spanFrom, pure_eq, String.ofList_toList, spanAt, List.length_append,
    Nat.add_assoc,
    hempty]

lemma text_append {s : String} (h : (WrittenLeaf.text s).isInside = true)
    (hrest : rest.head? = some '<') :
    Scan.text ⟨o, (WrittenLeaf.text s).chars ++ rest⟩ =
      .ok (some (.text s (spanAt o (WrittenLeaf.text s).chars)),
        ⟨o + (WrittenLeaf.text s).chars.length, rest⟩) := by
  simp only [WrittenLeaf.isInside, Bool.and_eq_true, Bool.not_eq_true'] at h
  obtain ⟨⟨⟨-, hcontent⟩, hangle⟩, hnot⟩ := h
  obtain ⟨more, rfl⟩ : ∃ more, rest = '<' :: more := by
    cases rest with
    | nil => cases hrest
    | cons c more => exact ⟨more, by rw [Option.some.inj hrest]⟩
  have hstop : "<".toList = ['<'] := rfl
  have hbefore : occursIn "<".toList s.toList = false := by
    rw [← Bool.not_eq_true, occursIn_iff, hstop]
    intro hoccurs
    have hmem : '<' ∈ s.toList := hoccurs.subset (by simp)
    simp [hmem] at hangle
  rw [WrittenLeaf.chars, Scan.text, bind_offset, ← List.singleton_append,
    bind_of_ok (content_until hstop (q := []) rfl (by decide) (by decide) hcontent hbefore), hnot]
  simp only [Bool.false_eq_true, if_false, bind_spanFrom, pure_eq, String.ofList_toList, spanAt]

/-! ## Tags -/

lemma tagOpen_append {n : QualifiedName} (h : n.isWritten = true)
    (hrest : rest.head?.any isNameChar = false) :
    tagOpen ⟨o, '<' :: (n.text.toList ++ rest)⟩ =
      .ok (some (.tagOpen n (spanAt o ('<' :: n.text.toList))),
        ⟨o + ('<' :: n.text.toList).length, rest⟩) := by
  have hskip : skip 1 ⟨o, '<' :: (n.text.toList ++ rest)⟩ =
      .ok ((), ⟨o + 1, n.text.toList ++ rest⟩) := rfl
  rw [tagOpen, bind_offset, bind_of_ok hskip, bind_of_ok (qualifiedName_append h hrest)]
  simp only [bind_spanFrom, pure_eq, spanAt, List.length_cons, Nat.add_assoc, Nat.add_comm 1]

/-- No name goes on with a blank or with a character that ends a tag. -/
lemma not_isNameChar_blanks {blanks : List Char} {c : Char} (hblanks : blanks.all isXmlSpace = true)
    (hc : isNameChar c = false) (rest : List Char) :
    (blanks ++ c :: rest).head?.any isNameChar = false := by
  cases blanks with
  | nil => exact hc
  | cons d more =>
      rw [List.all_cons, Bool.and_eq_true] at hblanks
      exact not_isNameChar_of_isXmlSpace hblanks.1

lemma endTag_append {t : WrittenTag} {blanks : List Char} (h : t.name.isWritten = true)
    (hblanks : blanks.all isXmlSpace = true) :
    endTag ⟨o, t.ending blanks ++ rest⟩ =
      .ok (some (.endTag t.name (spanAt o (t.ending blanks))),
        ⟨o + (t.ending blanks).length, rest⟩) := by
  have hopen : "</".toList = ['<', '/'] := rfl
  simp only [WrittenTag.ending, List.append_assoc, List.singleton_append]
  rw [endTag, bind_offset, bind_of_ok (skip_literal hopen),
    bind_of_ok (qualifiedName_append h (not_isNameChar_blanks hblanks (by decide) rest)),
    bind_of_ok (spaces_append hblanks (by rfl)), bind_of_ok (char_cons '>')]
  simp only [bind_spanFrom, pure_eq, spanAt, List.length_append, List.length_singleton,
    Nat.add_assoc]

end Scan

namespace WrittenAttribute

/-- The token of an attribute that is written at an offset. -/
def tokenAt (a : WrittenAttribute) (o : Nat) : Token :=
  .attribute a.name a.value ⟨a.nameStart o, a.nameStop o⟩ ⟨a.valueStart o, a.valueStop o⟩
    ⟨a.nameStart o, o + a.chars.length⟩

/-- What of an attribute is not blanks before it. -/
def visible (a : WrittenAttribute) : List Char :=
  a.name.text.toList ++ (a.beforeEquals ++
    '=' :: (a.afterEquals ++ a.mark :: (a.value.toList ++ [a.mark])))

lemma chars_eq (a : WrittenAttribute) : a.chars = a.blanks ++ a.visible :=
  rfl

lemma valueStop_succ (a : WrittenAttribute) (o : Nat) : a.valueStop o + 1 = o + a.chars.length := by
  simp only [valueStop, valueStart, nameStop, nameStart, chars, List.length_append,
    List.length_cons,
    List.length_nil]
  omega

end WrittenAttribute

namespace Scan

variable {o : Nat} {rest : List Char}

/-- An attribute goes on behind its equals sign with a value between two marks. -/
lemma tagAttribute_of_equals {c c₁ : Cursor} {key : QualifiedName} {mark : Char} {value : List Char}
    (hkey : qualifiedName c = .ok (key, c₁))
    (hequals : equals c₁ = .ok ((), ⟨o, mark :: (value ++ mark :: rest)⟩))
    (hmark : (mark == '\'' || mark == '"') = true)
    (hvalue : (value.all fun x => isDocumentChar x && x != mark && x != '<') = true) :
    tagAttribute c = .ok (some (.attribute key (String.ofList value) ⟨c.offset, c₁.offset⟩
      ⟨o + 1, o + 1 + value.length⟩ ⟨c.offset, o + 1 + value.length + 1⟩),
      ⟨o + 1 + value.length + 1, rest⟩) := by
  have hread : content (fun cs => cs.head? == some mark || cs.head? == some '<')
      ⟨o + 1, value ++ mark :: rest⟩ = .ok (value, ⟨o + 1 + value.length, mark :: rest⟩) := by
    rw [List.all_eq_true] at hvalue
    refine content_append (List.all_eq_true.mpr fun x hx => ?_) (fun v hv hsuffix => ?_)
      (.inr ⟨?_, ?_⟩)
    · have hx := hvalue x hx
      simp only [Bool.and_eq_true] at hx
      exact hx.1.1
    · cases v with
      | nil => exact absurd rfl hv
      | cons x v =>
          have hx := hvalue x (hsuffix.subset (List.mem_cons_self ..))
          simp only [Bool.and_eq_true, bne_iff_ne] at hx
          simp [hx.1.2, hx.2]
    · simp only [Bool.or_eq_true, beq_iff_eq] at hmark
      rcases hmark with rfl | rfl <;> rfl
    · simp
  rw [tagAttribute, bind_offset, bind_of_ok hkey, bind_spanFrom, bind_of_ok hequals,
    bind_of_ok (quote_cons hmark), bind_offset, bind_of_ok hread, bind_spanFrom,
      bind_of_ok (char_cons mark)]
  rfl

lemma tagAttribute_append {a : WrittenAttribute} (h : a.isWellFormed = true) :
    tagAttribute ⟨a.nameStart o, a.visible ++ rest⟩ =
      .ok (some (a.tokenAt o), ⟨o + a.chars.length, rest⟩) := by
  simp only [WrittenAttribute.isWellFormed, Bool.and_eq_true] at h
  obtain ⟨⟨⟨⟨⟨⟨-, -⟩, hname⟩, hbefore⟩, hafter⟩, hmark⟩, hvalue⟩ := h
  have hequals : equals ⟨a.nameStop o, a.beforeEquals ++ '=' :: (a.afterEquals ++
      a.mark :: (a.value.toList ++ a.mark :: rest))⟩ =
      .ok ((), ⟨a.nameStop o + a.beforeEquals.length + 1 + a.afterEquals.length,
        a.mark :: (a.value.toList ++ a.mark :: rest)⟩) := by
    have hnotBlank : isXmlSpace a.mark = false := by
      simp only [Bool.or_eq_true, beq_iff_eq] at hmark
      rcases hmark with hmark | hmark <;> rw [hmark] <;> decide
    rw [equals, bind_of_ok (spaces_append hbefore (by rfl)), bind_of_ok (char_cons '=')]
    exact spaces_append hafter hnotBlank
  have hkey : qualifiedName ⟨a.nameStart o, a.visible ++ rest⟩ = .ok (a.name,
      ⟨a.nameStop o, a.beforeEquals ++ '=' :: (a.afterEquals ++
        a.mark :: (a.value.toList ++ a.mark :: rest))⟩) := by
    simp only [WrittenAttribute.visible, List.append_assoc, List.cons_append, List.nil_append]
    exact qualifiedName_append hname (not_isNameChar_blanks hbefore (by decide) _)
  have hstop : a.nameStop o + a.beforeEquals.length + 1 + a.afterEquals.length + 1 +
      a.value.toList.length + 1 = o + a.chars.length := a.valueStop_succ o
  rw [tagAttribute_of_equals hkey hequals hmark hvalue, hstop, String.ofList_toList]
  rfl

/-- A name does not go on with an attribute, which has blanks before it. -/
lemma not_isNameChar_of_isWellFormed {a : WrittenAttribute} (h : a.isWellFormed = true)
    (rest : List Char) : (a.chars ++ rest).head?.any isNameChar = false := by
  simp only [WrittenAttribute.isWellFormed, Bool.and_eq_true] at h
  obtain ⟨⟨⟨⟨⟨⟨hne, hblanks⟩, -⟩, -⟩, -⟩, -⟩, -⟩ := h
  rw [a.chars_eq]
  cases ha : a.blanks with
  | nil => rw [ha] at hne; cases hne
  | cons b blanks =>
      rw [ha, List.all_cons, Bool.and_eq_true] at hblanks
      exact not_isNameChar_of_isXmlSpace hblanks.1

/-- What stands inside a tag behind a blank is an attribute if it is not the end. -/
lemma tagPart_of_spaces {c c₁ : Cursor} {x : Char} {r : List Char} (hc : c.rest = x :: r)
    (hx : isXmlSpace x = true) (hspaces : spaces c = .ok ((), c₁))
    (hslash : c₁.rest.head? ≠ some '/')
    (hclose : c₁.rest.head? ≠ some '>') : tagPart c = tagAttribute c₁ := by
  rw [tagPart, bind_of_ok (a := c) rfl, bind_of_ok hspaces, bind_offset,
    bind_of_ok (a := c₁.rest.head?) rfl, hc]
  dsimp only
  rw [if_pos hx]
  generalize c₁.rest.head? = found at hslash hclose ⊢
  split
  · exact absurd rfl hslash
  · exact absurd rfl hclose
  · rfl

/-- What stands inside a tag before its end is an attribute with a blank before it. -/
lemma tagPart_attribute {a : WrittenAttribute} (h : a.isWellFormed = true) :
    tagPart ⟨o, a.chars ++ rest⟩ = .ok (some (a.tokenAt o), ⟨o + a.chars.length, rest⟩) := by
  have hread : tagAttribute ⟨a.nameStart o, a.visible ++ rest⟩ = _ := tagAttribute_append h
  simp only [WrittenAttribute.isWellFormed, Bool.and_eq_true] at h
  obtain ⟨⟨⟨⟨⟨⟨hne, hblanks⟩, hname⟩, -⟩, -⟩, -⟩, -⟩ := h
  obtain ⟨c, more, hchars, hc⟩ := exists_of_isWritten hname
  obtain ⟨more, hvisible⟩ : ∃ more, a.visible ++ rest = c :: more := by
    rw [WrittenAttribute.visible, hchars]
    exact ⟨_, rfl⟩
  obtain ⟨b, blanks, hb⟩ : ∃ b blanks, a.blanks = b :: blanks := by
    cases ha : a.blanks with
    | nil => rw [ha] at hne; cases hne
    | cons b blanks => exact ⟨b, blanks, rfl⟩
  have hblank : isXmlSpace b = true := by
    rw [hb, List.all_cons, Bool.and_eq_true] at hblanks
    exact hblanks.1
  have hnotBlank : (a.visible ++ rest).head?.any isXmlSpace = false := by
    rw [hvisible, ← Bool.not_eq_true]
    intro hspace
    have hnot := not_isNameChar_of_isXmlSpace hspace
    rw [isNameChar_of_isNameStart hc] at hnot
    cases hnot
  have hnotEnd {d : Char} (hd : isNameStart d = false) : (a.visible ++ rest).head? ≠ some d := by
    rw [hvisible, List.head?_cons]
    rintro ⟨⟩
    rw [hc] at hd
    cases hd
  have hspaces : spaces ⟨o, a.blanks ++ (a.visible ++ rest)⟩ =
      .ok ((), ⟨a.nameStart o, a.visible ++ rest⟩) := spaces_append hblanks hnotBlank
  rw [a.chars_eq, List.append_assoc,
    tagPart_of_spaces (by rw [hb]; rfl) hblank hspaces (hnotEnd (by decide)) (hnotEnd (by decide))]
  exact hread

lemma tagPart_close {blanks : List Char} (h : blanks.all isXmlSpace = true) :
    tagPart ⟨o, blanks ++ '>' :: rest⟩ =
      .ok (some (.tagClose ⟨o + blanks.length, o + blanks.length + 1⟩),
        ⟨o + blanks.length + 1, rest⟩) := by
  rw [tagPart, bind_of_ok (a := (⟨o, blanks ++ '>' :: rest⟩ : Cursor)) rfl,
    bind_of_ok (spaces_append h (by rfl))]
  rfl

lemma tagPart_selfClose {blanks : List Char} (h : blanks.all isXmlSpace = true) :
    tagPart ⟨o, blanks ++ '/' :: '>' :: rest⟩ =
      .ok (some (.tagSelfClose ⟨o + blanks.length, o + blanks.length + 2⟩),
        ⟨o + blanks.length + 2, rest⟩) := by
  rw [tagPart, bind_of_ok (a := (⟨o, blanks ++ '/' :: '>' :: rest⟩ : Cursor)) rfl,
    bind_of_ok (spaces_append h (by rfl))]
  rfl

end Scan

end XmlAdvisor
