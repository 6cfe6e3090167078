import XmlAdvisor.Proofs.ChildDeclarations
import XmlAdvisor.Proofs.LoweredLanguage

/-!
# Flat content models and the depth limit

The members of a choice, a group or an interleaving are put together from the left, so what is
written out from `n` members is nested `n` deep, and its first member lies deepest.  A residual is
looked into down to a fixed depth.  Hence flat content models are checked rightly as long as they
have no more members than the depth limit, although they refer to nothing and repeat nothing; beyond
that their first members are not seen.

* `Residual.oneOf`, `Residual.inOrder`, `Residual.inAnyOrder` — what is written out from members.
* `derivativeWithin_oneOf`, `derivativeWithin_inOrder`, `derivativeWithin_inAnyOrder` — what a
  member's name leaves, for every depth: the member at place `i` of `n` is seen exactly if
  `n < depth + max i 1`.
* **`flat_isValid_iff`** — all that a flat content model allows is valid exactly if it has no more
  members than the depth limit.
* `choice_not_valid_crowd` — a written choice of 513 elements, the first of which is rejected.
-/

namespace XmlAdvisor

/-! ## What is written out from members -/

namespace Residual

/-- One of some patterns. -/
def oneOf (ids : List Nat) : Residual :=
  ids.foldl (fun acc m => acc.either (.pattern m)) .notAllowed

/-- Patterns one after the other. -/
def inOrder (ids : List Nat) : Residual :=
  ids.foldl (fun acc m => acc.followedBy (.pattern m)) .empty

/-- Patterns mingled. -/
def inAnyOrder (ids : List Nat) : Residual :=
  ids.foldl (fun acc m => acc.mingledWith (.pattern m)) .empty

variable {ids : List Nat}

lemma either_notAllowed (a : Residual) : a.either .notAllowed = a := by
  cases a <;> rfl

lemma notAllowed_either (a : Residual) : Residual.notAllowed.either a = a := by
  cases a <;> rfl

lemma mingledWith_empty (a : Residual) : a.mingledWith .empty = a := by
  cases a <;> rfl

lemma mingledWith_notAllowed (a : Residual) : a.mingledWith .notAllowed = .notAllowed := by
  cases a <;> rfl

lemma notAllowed_mingledWith (a : Residual) : Residual.notAllowed.mingledWith a = .notAllowed := by
  cases a <;> rfl

/-- Members that are put together from the left are nested as deep as they are many. -/
lemma foldl_members {op con : Residual → Residual → Residual} {start : Residual}
    (first : ∀ q, op start (.pattern q) = .pattern q)
    (further : ∀ a p q, op (con a (.pattern p)) (.pattern q) = con (con a (.pattern p))
      (.pattern q))
    (hne : ids ≠ []) {q : Nat} (second : (ids ++ [q]).Pairwise fun p q =>
      op (.pattern p) (.pattern q) = con (.pattern p) (.pattern q)) :
    (ids ++ [q]).foldl (fun acc m => op acc (.pattern m)) start =
      con (ids.foldl (fun acc m => op acc (.pattern m)) start) (.pattern q) := by
  induction ids using List.reverseRecOn generalizing q with
  | nil => exact absurd rfl hne
  | append_singleton ids p ih =>
      obtain ⟨hfront, -, hboth⟩ := List.pairwise_append.mp second
      rw [List.foldl_concat]
      by_cases hids : ids = []
      · subst hids
        rw [List.nil_append, List.foldl_cons, List.foldl_nil, first]
        exact hboth p (List.mem_singleton_self p) q (List.mem_singleton_self q)
      · rw [ih hids hfront, further]

/-- A further alternative that is not there yet is kept. -/
lemma oneOf_concat (hne : ids ≠ []) {q : Nat} (hnodup : (ids ++ [q]).Nodup) :
    oneOf (ids ++ [q]) = .choice (oneOf ids) (.pattern q) :=
  @foldl_members ids either .choice .notAllowed (fun _ => rfl) (fun a p q => by simp [either]) hne q
    (hnodup.imp fun hpq => if_neg fun h => hpq (Residual.pattern.inj h))

lemma inOrder_concat (hne : ids ≠ []) (q : Nat) :
    inOrder (ids ++ [q]) = .group (inOrder ids) (.pattern q) :=
  @foldl_members ids followedBy .group .empty (fun _ => rfl) (fun _ _ _ => rfl) hne q
    (List.pairwise_of_forall fun _ _ => rfl)

lemma inAnyOrder_concat (hne : ids ≠ []) (q : Nat) :
    inAnyOrder (ids ++ [q]) = .interleave (inAnyOrder ids) (.pattern q) :=
  @foldl_members ids mingledWith .interleave .empty (fun _ => rfl) (fun _ _ _ => rfl) hne q
    (List.pairwise_of_forall fun _ _ => rfl)

lemma inOrder_ne_notAllowed (ids : List Nat) : inOrder ids ≠ .notAllowed := by
  induction ids using List.reverseRecOn with
  | nil => simp [inOrder]
  | append_singleton ids q ih =>
      rw [inOrder, List.foldl_concat, ← inOrder, ne_eq, followedBy_eq_notAllowed_iff]
      simp [ih]

lemma inAnyOrder_ne_notAllowed (ids : List Nat) : inAnyOrder ids ≠ .notAllowed := by
  induction ids using List.reverseRecOn with
  | nil => simp [inAnyOrder]
  | append_singleton ids q ih =>
      rw [inAnyOrder, List.foldl_concat, ← inAnyOrder, ne_eq, mingledWith_eq_notAllowed_iff]
      simp [ih]

end Residual

namespace Schema

variable {s : Schema} {ids : List Nat} {n : String × String}

/-! ## Members with one name each -/

/-- Element patterns with one name each, all of them different. -/
structure Flat (s : Schema) (ids : List Nat) : Prop where
  named : ∀ p ∈ ids, (s.simpleName? p).isSome = true
  apart : (ids.map s.simpleName?).Nodup

lemma Flat.sublist {less : List Nat} (h : s.Flat ids) (hless : less.Sublist ids) : s.Flat less :=
  ⟨fun p hp => h.named p (hless.subset hp), h.apart.sublist (hless.map _)⟩

lemma Flat.nodup (h : s.Flat ids) : ids.Nodup :=
  h.apart.of_map _

lemma isElement_of_simpleName? {p : Nat} (h : (s.simpleName? p).isSome = true) :
    s.isElement p = true := by
  obtain ⟨m, hm⟩ := Option.isSome_iff_exists.mp h
  obtain ⟨c, hc, -⟩ := Option.bind_eq_some_iff.mp hm
  exact s.isElement_of_elementName? hc

/-- Whether a pattern is an element that does not have the given name. -/
def Lacks (s : Schema) (n : String × String) (id : Nat) : Prop :=
  s.isElement id = true ∧ s.admits id n = false

/-- Of members in different places, one lacks the name of the other. -/
lemma Flat.lacks {before after : List Nat} (h : s.Flat (before ++ after)) {p q : Nat}
    (hp : p ∈ before) (hq : q ∈ after) :
    (s.simpleName? p = some n → s.Lacks n q) ∧ (s.simpleName? q = some n → s.Lacks n p) := by
  have hapart := h.apart
  rw [List.map_append, List.nodup_append'] at hapart
  have hne : s.simpleName? p ≠ s.simpleName? q := fun hsame =>
    hapart.2.2 (List.mem_map_of_mem hp) (hsame ▸ List.mem_map_of_mem hq)
  have hother {x y : Nat} (hx : (s.simpleName? x).isSome = true) (hy : s.simpleName? y = some n)
      (hne : s.simpleName? x ≠ s.simpleName? y) : s.Lacks n x := by
    obtain ⟨m, hm⟩ := Option.isSome_iff_exists.mp hx
    refine ⟨s.isElement_of_simpleName? hx, ?_⟩
    rw [← Bool.not_eq_true, s.admits_iff_of_simpleName? hm]
    rintro rfl
    exact hne (hm.trans hy.symm)
  exact ⟨fun hname => hother (h.named q (by simp [hq])) hname hne.symm,
    fun hname => hother (h.named p (by simp [hp])) hname hne⟩

/-- Nothing is left of elements that lack the name. -/
lemma derivativeWithin_of_lacks (depth : Nat) {r : Residual} (hr : r.Sound (s.Lacks n)) :
    s.derivativeWithin n.1 n.2 depth r = .notAllowed := by
  have hparts : ∀ id, s.Lacks n id → ∀ m ∈ s.parts true id, s.Lacks n m := by
    rintro id ⟨hid, -⟩ m hm
    rw [isElement] at hid
    rw [parts] at hm
    split at hid
    · rename_i hp
      rw [hp] at hm
      cases hm
    · cases hid
  by_contra hne
  obtain ⟨p, hp, hadmits⟩ := (s.derivativeWithin_ne_notAllowed_iff hparts n depth hr).mp hne
  rw [(s.prop_of_mem_firstWithin hparts depth hr hp).2] at hadmits
  cases hadmits

/-- A member is one of those in front or the last. -/
lemma getElem?_concat_cases {i p q : Nat} (h : (ids ++ [q])[i]? = some p) :
    (i < ids.length ∧ ids[i]? = some p) ∨ i = ids.length ∧ q = p := by
  rcases Nat.lt_or_ge i ids.length with hlt | hge
  · exact .inl ⟨hlt, by rwa [List.getElem?_append_left hlt] at h⟩
  · rw [List.getElem?_append_right hge, List.getElem?_singleton] at h
    split_ifs at h with hi
    exact .inr ⟨by omega, Option.some.inj h⟩

/-! ## What a name leaves of members -/

lemma derivativeWithin_member {p : Nat} (hp : s.simpleName? p = some n) (depth : Nat) :
    s.derivativeWithin n.1 n.2 depth (.pattern p) = if 0 < depth then .empty else .notAllowed := by
  cases depth with
  | zero => rfl
  | succ depth =>
      obtain ⟨c, hc, hsimple⟩ := Option.bind_eq_some_iff.mp hp
      have hself : c.contains n.1 n.2 = true := by
        rw [NameClass.contains_of_simple? hsimple]
        simp
      simp [derivativeWithin, hc, hself]

/-- The name of an alternative leaves nothing more to come, if the depth reaches the alternative. -/
lemma derivativeWithin_oneOf (h : s.Flat ids) {i p : Nat} (hi : ids[i]? = some p)
    (hp : s.simpleName? p = some n) (depth : Nat) :
    s.derivativeWithin n.1 n.2 depth (.oneOf ids) =
      if ids.length < depth + max i 1 then .empty else .notAllowed := by
  induction ids using List.reverseRecOn generalizing depth with
  | nil => cases hi
  | append_singleton ids q ih =>
      by_cases hids : ids = []
      · subst hids
        obtain ⟨hlt, -⟩ | ⟨rfl, rfl⟩ := getElem?_concat_cases hi
        · cases hlt
        · have hsole : Residual.oneOf ([] ++ [q]) = .pattern q := rfl
          rw [hsole, derivativeWithin_member hp]
          simp
      rw [Residual.oneOf_concat hids h.nodup, List.length_append, List.length_singleton]
      have hpos := List.length_pos_iff.mpr hids
      cases depth with
      | zero =>
          rw [derivativeWithin, if_neg]
          obtain ⟨hlt, -⟩ | ⟨rfl, -⟩ := getElem?_concat_cases hi <;> omega
      | succ depth =>
          rw [derivativeWithin]
          obtain ⟨hlt, hi⟩ | ⟨rfl, rfl⟩ := getElem?_concat_cases hi
          · have hlast : (Residual.pattern q).Sound (s.Lacks n) :=
              .inr ((h.lacks (List.mem_of_getElem? hi) (List.mem_singleton_self q)).1 hp)
            rw [derivativeWithin_of_lacks depth hlast, Residual.either_notAllowed,
              ih (h.sublist (List.sublist_append_left ..)) hi]
            have hdepth : ids.length + 1 < depth + 1 + max i 1 ↔ ids.length < depth + max i 1 := by
              omega
            simp only [hdepth]
          · have hfront : (Residual.oneOf ids).Sound (s.Lacks n) :=
              Residual.Sound.foldl (fun ha hb => ha.either hb) ids (.inl rfl)
                fun m hm => (h.lacks hm (List.mem_singleton_self q)).2 hp
            rw [derivativeWithin_of_lacks depth hfront, Residual.notAllowed_either,
              derivativeWithin_member hp]
            have hdepth : ids.length + 1 < depth + 1 + max ids.length 1 ↔ 0 < depth := by omega
            simp only [hdepth]

/-- The name of a mingled member leaves the others, if the depth reaches the member. -/
lemma derivativeWithin_inAnyOrder (h : s.Flat ids) {i p : Nat} (hi : ids[i]? = some p)
    (hp : s.simpleName? p = some n) (depth : Nat) :
    s.derivativeWithin n.1 n.2 depth (.inAnyOrder ids) =
      if ids.length < depth + max i 1 then .inAnyOrder (ids.eraseIdx i) else .notAllowed := by
  induction ids using List.reverseRecOn generalizing depth with
  | nil => cases hi
  | append_singleton ids q ih =>
      by_cases hids : ids = []
      · subst hids
        obtain ⟨hlt, -⟩ | ⟨rfl, rfl⟩ := getElem?_concat_cases hi
        · cases hlt
        · have hsole : Residual.inAnyOrder ([] ++ [q]) = .pattern q := rfl
          rw [hsole, derivativeWithin_member hp]
          simp [Residual.inAnyOrder]
      rw [Residual.inAnyOrder_concat hids, List.length_append, List.length_singleton]
      have hpos := List.length_pos_iff.mpr hids
      cases depth with
      | zero =>
          rw [derivativeWithin, if_neg]
          obtain ⟨hlt, -⟩ | ⟨rfl, -⟩ := getElem?_concat_cases hi <;> omega
      | succ depth =>
          rw [derivativeWithin]
          obtain ⟨hlt, hi⟩ | ⟨rfl, rfl⟩ := getElem?_concat_cases hi
          · have hlast : (Residual.pattern q).Sound (s.Lacks n) :=
              .inr ((h.lacks (List.mem_of_getElem? hi) (List.mem_singleton_self q)).1 hp)
            have hdepth : ids.length + 1 < depth + 1 + max i 1 ↔ ids.length < depth + max i 1 := by
              omega
            rw [derivativeWithin_of_lacks depth hlast, Residual.mingledWith_notAllowed,
              Residual.either_notAllowed, ih (h.sublist (List.sublist_append_left ..)) hi,
              List.eraseIdx_append_of_lt_length hlt]
            simp only [hdepth]
            split_ifs
            · rw [Residual.inAnyOrder, Residual.inAnyOrder, List.foldl_concat]
            · rfl
          · have hfront : (Residual.inAnyOrder ids).Sound (s.Lacks n) :=
              Residual.Sound.foldl (fun ha hb => ha.mingledWith hb) ids (.inr trivial)
                fun m hm => (h.lacks hm (List.mem_singleton_self q)).2 hp
            rw [derivativeWithin_of_lacks depth hfront, Residual.notAllowed_mingledWith,
              Residual.notAllowed_either, derivativeWithin_member hp,
              List.eraseIdx_append_of_length_le (Nat.le_refl _), Nat.sub_self,
              List.eraseIdx_cons_zero,
              List.append_nil]
            have hdepth : ids.length + 1 < depth + 1 + max ids.length 1 ↔ 0 < depth := by omega
            simp only [hdepth]
            split_ifs
            · exact Residual.mingledWith_empty _
            · exact Residual.mingledWith_notAllowed _

/-- Members that have to come cannot be left out. -/
lemma nullableWithin_inOrder (h : s.Flat ids) (hne : ids ≠ []) (depth : Nat) :
    s.nullableWithin depth (.inOrder ids) = false := by
  induction ids using List.reverseRecOn generalizing depth with
  | nil => exact absurd rfl hne
  | append_singleton ids q ih =>
      cases depth with
      | zero => rfl
      | succ depth =>
          by_cases hids : ids = []
          · subst hids
            have hel := s.isElement_of_simpleName? (h.named q (by simp))
            have hsole : Residual.inOrder ([] ++ [q]) = .pattern q := rfl
            rw [hsole, nullableWithin, if_pos hel]
          · rw [Residual.inOrder_concat hids, nullableWithin,
              ih (h.sublist (List.sublist_append_left ..)) hids, Bool.false_and]

/-- The name of the first of members in order leaves those behind it, if the depth reaches it. -/
lemma derivativeWithin_inOrder {p : Nat} (h : s.Flat (p :: ids)) (hp : s.simpleName? p = some n)
    (depth : Nat) :
    s.derivativeWithin n.1 n.2 depth (.inOrder (p :: ids)) =
      if ids.length < depth then .inOrder ids else .notAllowed := by
  induction ids using List.reverseRecOn generalizing depth with
  | nil => exact derivativeWithin_member hp depth
  | append_singleton ids q ih =>
      have hfront : s.Flat (p :: ids) := h.sublist (by simp)
      rw [← List.cons_append, Residual.inOrder_concat (List.cons_ne_nil p ids), List.length_append,
        List.length_singleton]
      cases depth with
      | zero => rfl
      | succ depth =>
          have hnull := nullableWithin_inOrder hfront (List.cons_ne_nil p ids) depth
          simp only [derivativeWithin, hnull, Bool.false_eq_true, if_false, ih hfront,
            Nat.add_lt_add_iff_right]
          split_ifs
          · rw [Residual.inOrder, Residual.inOrder, List.foldl_concat]
          · rfl

/-! ## Checking children against flat content -/

/-- The names of elements, as names of members. -/
def namesOf (children : List ElementNode) : List (Option (String × String)) :=
  children.map fun c => some c.expandedName

/-- Children with the names of members in order use the members up. -/
lemma foldChildren_inOrder (h : s.Flat ids) {children : List ElementNode}
    (hnames : namesOf children = ids.map s.simpleName?)
    (hle : ids.length ≤ Residual.depthLimit + 1) :
    s.foldChildren (.inOrder ids) children = (.empty, []) := by
  induction ids generalizing children with
  | nil =>
      rw [List.map_eq_nil_iff.mp hnames]
      rfl
  | cons p ids ih =>
      obtain ⟨c, more, rfl, hp, hmore⟩ := List.map_eq_cons_iff.mp hnames
      have hnext : s.derivativeBy (.inOrder (p :: ids)) c = .inOrder ids := by
        rw [derivativeBy, derivative]
        exact (derivativeWithin_inOrder h hp.symm _).trans (if_pos hle)
      rw [foldChildren]
      dsimp only
      rw [hnext, if_neg (Residual.inOrder_ne_notAllowed ids)]
      exact ih (h.sublist (List.sublist_cons_self ..)) hmore (Nat.le_of_succ_le hle)

/-- The first of children with the names of members in any order has the name of a member, and the
others have the names of the other members. -/
lemma exists_eraseIdx_perm {c : ElementNode} {more : List ElementNode}
    (hnames : (namesOf (c :: more)).Perm (ids.map s.simpleName?)) :
    ∃ i p, ids[i]? = some p ∧ s.simpleName? p = some c.expandedName ∧
      (namesOf more).Perm ((ids.eraseIdx i).map s.simpleName?) := by
  obtain ⟨p, hp, hname⟩ := List.mem_map.mp (hnames.subset (List.mem_cons_self ..))
  obtain ⟨i, hi, rfl⟩ := List.getElem_of_mem hp
  have hsplit := (List.getElem_cons_eraseIdx_perm hi).map s.simpleName?
  rw [List.map_cons, hname] at hsplit
  exact ⟨i, ids[i], List.getElem?_eq_getElem hi, hname, (hnames.trans hsplit.symm).cons_inv⟩

/-- Children with the names of members in any order use the members up. -/
lemma foldChildren_inAnyOrder (children : List ElementNode) (h : s.Flat ids)
    (hnames : (namesOf children).Perm (ids.map s.simpleName?))
    (hle : ids.length ≤ Residual.depthLimit + 1) :
    s.foldChildren (.inAnyOrder ids) children = (.empty, []) := by
  induction children generalizing ids with
  | nil =>
      rw [List.map_eq_nil_iff.mp (List.nil_perm.mp hnames)]
      rfl
  | cons c more ih =>
      obtain ⟨i, p, hi, hname, hrest⟩ := exists_eraseIdx_perm hnames
      have hnext : s.derivativeBy (.inAnyOrder ids) c = .inAnyOrder (ids.eraseIdx i) := by
        rw [derivativeBy, derivative]
        exact (derivativeWithin_inAnyOrder h hi hname _).trans (if_pos (by omega))
      rw [foldChildren]
      dsimp only
      rw [hnext, if_neg (Residual.inAnyOrder_ne_notAllowed _)]
      exact ih (h.sublist (List.eraseIdx_sublist ..)) hrest
        (((List.eraseIdx_sublist ids i).length_le).trans hle)

variable {content id : Nat} {members : List Nat}

/-- The first child meets the content model written out. -/
lemma derivativeBy_content (h : s.elementName? content = none) (c : ElementNode) :
    s.derivativeBy (.pattern content) c =
      s.derivativeWithin c.expandedName.1 c.expandedName.2 Residual.depthLimit
        (s.expand content) := by
  rw [derivativeBy, derivative, derivativeWithin, h]
  rfl

lemma isValid_of_foldChildren (hc : s.elementContent? id = some content)
    {children : List ElementNode} (h : s.foldChildren (.pattern content) children = (.empty, [])) :
    ((Declaration.pattern s id).checkContent children).isValid = true :=
  (s.isValid_checkContent hc children).mpr (by rw [h]; exact ⟨rfl, rfl⟩)

/-- Content is not valid if its first child leaves nothing. -/
lemma not_isValid_of_derivativeBy (hc : s.elementContent? id = some content) {c : ElementNode}
    (h : s.derivativeBy (.pattern content) c = .notAllowed) (more : List ElementNode) :
    ((Declaration.pattern s id).checkContent (c :: more)).isValid ≠ true := by
  rw [ne_eq, s.isValid_checkContent hc, foldChildren]
  simp [h]

/-- An alternative of a flat choice is valid content, if the depth reaches it. -/
lemma isValid_oneOf (hc : s.elementContent? id = some content)
    (hp : s.pattern content = .choice members) (h : s.Flat members) {i p : Nat}
    (hi : members[i]? = some p) {c : ElementNode} (hname : s.simpleName? p = some c.expandedName) :
    ((Declaration.pattern s id).checkContent [c]).isValid = true ↔
      members.length < Residual.depthLimit + max i 1 := by
  have hstep : s.derivativeBy (.pattern content) c =
      if members.length < Residual.depthLimit + max i 1 then .empty else .notAllowed := by
    have hexpand : s.expand content = .oneOf members := by rw [expand, hp]; rfl
    rw [derivativeBy_content (by rw [elementName?, hp]), hexpand]
    exact derivativeWithin_oneOf h hi hname _
  constructor
  · intro hvalid
    by_contra hdeep
    rw [if_neg hdeep] at hstep
    exact not_isValid_of_derivativeBy hc hstep [] hvalid
  · intro hlt
    rw [if_pos hlt] at hstep
    exact isValid_of_foldChildren hc (by simp [foldChildren, hstep])

/-- Children with the names of a flat group in order are valid, if the group is not too long. -/
lemma isValid_inOrder (hc : s.elementContent? id = some content)
    (hp : s.pattern content = .group members) (h : s.Flat members) {children : List ElementNode}
    (hnames : namesOf children = members.map s.simpleName?) :
    ((Declaration.pattern s id).checkContent children).isValid = true ↔
      members.length ≤ Residual.depthLimit := by
  have hexpand : s.expand content = .inOrder members := by rw [expand, hp]; rfl
  have hname : s.elementName? content = none := by rw [elementName?, hp]
  cases members with
  | nil =>
      rw [List.map_eq_nil_iff.mp hnames, s.isValid_checkContent hc]
      simp [foldChildren, nullable, nullableWithin, isElement, hp, hexpand, Residual.inOrder,
        Residual.depthLimit]
  | cons p ids =>
      obtain ⟨c, more, rfl, hfirst, hmore⟩ := List.map_eq_cons_iff.mp hnames
      have hstep : s.derivativeBy (.pattern content) c =
          if ids.length < Residual.depthLimit then .inOrder ids else .notAllowed := by
        rw [derivativeBy_content hname, hexpand]
        exact derivativeWithin_inOrder h hfirst.symm _
      rw [List.length_cons, Nat.succ_le_iff]
      constructor
      · intro hvalid
        by_contra hdeep
        rw [if_neg hdeep] at hstep
        exact not_isValid_of_derivativeBy hc hstep more hvalid
      · intro hlt
        rw [if_pos hlt] at hstep
        refine isValid_of_foldChildren hc ?_
        rw [foldChildren]
        dsimp only
        rw [hstep, if_neg (Residual.inOrder_ne_notAllowed ids)]
        exact foldChildren_inOrder (h.sublist (List.sublist_cons_self ..)) hmore (by omega)

/-- The first child of a flat interleaving meets the members as they are nested. -/
lemma derivativeBy_inAnyOrder (hp : s.pattern content = .interleave members) (h : s.Flat members)
    {i p : Nat} (hi : members[i]? = some p) {c : ElementNode}
    (hname : s.simpleName? p = some c.expandedName) :
    s.derivativeBy (.pattern content) c =
      if members.length < Residual.depthLimit + max i 1 then .inAnyOrder (members.eraseIdx i)
      else .notAllowed := by
  have hexpand : s.expand content = .inAnyOrder members := by rw [expand, hp]; rfl
  rw [derivativeBy_content (by rw [elementName?, hp]), hexpand]
  exact derivativeWithin_inAnyOrder h hi hname _

/-- Children with the names of a flat interleaving in any order are valid, if it has no more members
than the depth limit. -/
lemma isValid_inAnyOrder (hc : s.elementContent? id = some content)
    (hp : s.pattern content = .interleave members) (h : s.Flat members)
    {children : List ElementNode} (hnames : (namesOf children).Perm (members.map s.simpleName?))
    (hle : members.length ≤ Residual.depthLimit) :
    ((Declaration.pattern s id).checkContent children).isValid = true := by
  cases children with
  | nil =>
      rw [s.isValid_checkContent hc]
      have hnone : members = [] := List.map_eq_nil_iff.mp (List.nil_perm.mp hnames)
      subst hnone
      simp [foldChildren, nullable, nullableWithin, isElement, expand, hp, Residual.depthLimit]
  | cons c more =>
      obtain ⟨i, p, hi, hname, hrest⟩ := exists_eraseIdx_perm hnames
      have hstep := derivativeBy_inAnyOrder hp h hi hname
      rw [if_pos (by omega)] at hstep
      refine isValid_of_foldChildren hc ?_
      rw [foldChildren]
      dsimp only
      rw [hstep, if_neg (Residual.inAnyOrder_ne_notAllowed _)]
      exact foldChildren_inAnyOrder more (h.sublist (List.eraseIdx_sublist ..)) hrest
        (((List.eraseIdx_sublist members i).length_le).trans (Nat.le_succ_of_le hle))

/-! ## All that a flat content model allows -/

/-- A child with the given name and nothing in it. -/
def childWith (n : String × String) : ElementNode :=
  ⟨0, none, ⟨0, 0⟩, ⟨⟨none, n.2⟩, some n.1, [], [], none, none, false⟩⟩

@[simp] lemma childWith_expandedName (n : String × String) : (childWith n).expandedName = n := rfl

lemma exists_names (h : s.Flat members) :
    ∃ names : List (String × String), members.map s.simpleName? = names.map some := by
  induction members with
  | nil => exact ⟨[], rfl⟩
  | cons p ids ih =>
      obtain ⟨names, hnames⟩ := ih (h.sublist (List.sublist_cons_self ..))
      obtain ⟨n, hn⟩ := Option.isSome_iff_exists.mp (h.named p (List.mem_cons_self ..))
      exact ⟨n :: names, by simp [hn, hnames]⟩

lemma exists_children (h : s.Flat members) :
    ∃ children, namesOf children = members.map s.simpleName? := by
  obtain ⟨names, hnames⟩ := exists_names h
  exact ⟨names.map childWith, by simp [namesOf, hnames]⟩

/-- **Flat content models are checked rightly up to the depth limit, and not beyond it.**  All that
a choice, a group or an interleaving of elements with one name each allows is valid exactly if it
has no more members than a residual is looked into. -/
theorem flat_isValid_iff (hc : s.elementContent? id = some content) (h : s.Flat members) :
    (s.pattern content = .choice members →
      ((∀ c, some c.expandedName ∈ members.map s.simpleName? →
          ((Declaration.pattern s id).checkContent [c]).isValid = true) ↔
        members.length ≤ Residual.depthLimit)) ∧
    (s.pattern content = .group members →
      ((∀ children, namesOf children = members.map s.simpleName? →
          ((Declaration.pattern s id).checkContent children).isValid = true) ↔
        members.length ≤ Residual.depthLimit)) ∧
    (s.pattern content = .interleave members →
      ((∀ children, (namesOf children).Perm (members.map s.simpleName?) →
          ((Declaration.pattern s id).checkContent children).isValid = true) ↔
        members.length ≤ Residual.depthLimit)) := by
  obtain ⟨listed, hlisted⟩ := exists_children h
  refine ⟨fun hp => ⟨fun hall => ?_, fun hle c hmem => ?_⟩,
    fun hp => ⟨fun hall => ?_, fun hle children hnames => ?_⟩,
    fun hp => ⟨fun hall => ?_, fun hle children hnames => ?_⟩⟩
  · -- the first alternative lies deepest
    cases members with
    | nil => exact Nat.zero_le _
    | cons p ids =>
        obtain ⟨c, -, -, hname, -⟩ := List.map_eq_cons_iff.mp hlisted
        have hvalid := hall c (by simp [← hname])
        exact Nat.le_of_lt_succ ((isValid_oneOf hc hp h (i := 0) rfl hname.symm).mp hvalid)
  · obtain ⟨p, hpm, hname⟩ := List.mem_map.mp hmem
    obtain ⟨i, hi⟩ := List.getElem?_of_mem hpm
    exact (isValid_oneOf hc hp h hi hname).mpr (by omega)
  · exact (isValid_inOrder hc hp h hlisted).mp (hall listed hlisted)
  · exact (isValid_inOrder hc hp h hnames).mpr hle
  · -- and so does the first of mingled members
    cases members with
    | nil => exact Nat.zero_le _
    | cons p ids =>
        obtain ⟨c, more, rfl, hname, -⟩ := List.map_eq_cons_iff.mp hlisted
        by_contra hdeep
        have hstep := derivativeBy_inAnyOrder hp h (i := 0) rfl hname.symm
        rw [if_neg (by omega)] at hstep
        exact not_isValid_of_derivativeBy hc hstep more (hall _ (List.Perm.of_eq hlisted))
  · exact isValid_inAnyOrder hc hp h hnames hle

/-- A street, a town and a code in any order. -/
def addresses : Schema where
  patterns := #[.empty, .element (.name "" "street") 0 none, .element (.name "" "town") 0 none,
    .element (.name "" "code") 0 none, .interleave [1, 2, 3], .element (.name "" "address") 4 none]
  definitions := #[]
  start := 5

theorem flat_isValid_iff_addresses :
    addresses.elementContent? 5 = some 4 ∧ addresses.Flat [1, 2, 3] ∧
      addresses.pattern 4 = .interleave [1, 2, 3] ∧
      ((∀ children, (namesOf children).Perm ([1, 2, 3].map addresses.simpleName?) →
          ((Declaration.pattern addresses 5).checkContent children).isValid = true) ↔
        3 ≤ Residual.depthLimit) :=
  have hc : addresses.elementContent? 5 = some 4 := rfl
  have h : addresses.Flat [1, 2, 3] := ⟨by decide, by decide⟩
  ⟨hc, h, rfl, (flat_isValid_iff hc h).2.2 rfl⟩

/-! ## A choice with too many members -/

/-- Elements with the given names and nothing in them. -/
def bareElements (names : List String) : List SourcePattern :=
  names.map fun n => .element (.name "" n) [] none

/-- A root that holds one of the elements with the given names. -/
def choiceSource (names : List String) : SourceSchema :=
  .pattern (.element (.name "" "r") [.choice (bareElements names)] none)

/-- Elements without content are compiled one after the other, each with its name. -/
lemma lowerAll_bareElements (names : List String) (b : SchemaBuilder) :
    ∃ ids b', SchemaBuilder.lowerAll (bareElements names) b = (ids, b') ∧ b.Lowers b' ∧
      b'.definitions = b.definitions ∧
      List.Forall₂ (fun p n => ∃ body, b'.patterns[p]? = some (.element (.name "" n) body none))
        ids names := by
  induction names generalizing b with
  | nil =>
      exact ⟨[], b, by simp [bareElements, SchemaBuilder.lowerAll],
        SchemaBuilder.lowers_refl b, rfl,
        .nil⟩
  | cons n names ih =>
      let b₁ := (b.push .empty).2
      let p := Pattern.element (.name "" n) (b.push .empty).1 none
      obtain ⟨ids, b', hlower, hgrows, hdefs, hids⟩ := ih (b₁.push p).2
      have hfirst := hgrows.patterns _ _ (b₁.getElem?_push_self p)
      refine ⟨(b₁.push p).1 :: ids, b', ?_, ?_, hdefs, .cons ⟨_, hfirst⟩ hids⟩
      · simp only [bareElements] at hlower
        simp [bareElements, SchemaBuilder.lowerAll, SchemaBuilder.lower, SchemaBuilder.lowerBody,
          SchemaBuilder.group, hlower, b₁, p]
      · exact ((b.lowers_push .empty).trans (b₁.lowers_push p)).trans hgrows

/-- What a choice of elements is compiled to. -/
lemma compile_choiceSource (names : List String) :
    ∃ s content members, (choiceSource names).compile = .ok s ∧
      s.elementContent? s.start = some content ∧ s.pattern content = .choice members ∧
      members.map s.simpleName? = names.map fun n => some ("", n) := by
  obtain ⟨ids, b, hlower, -, hdefs, hids⟩ := lowerAll_bareElements names .empty
  let b₁ := (b.push (.choice ids)).2
  let r := Pattern.element (.name "" "r") (b.push (.choice ids)).1 none
  let s : Schema := ⟨(b₁.push r).2.patterns, b.definitions, (b₁.push r).1⟩
  have hroot : s.patterns[s.start]? = some r := b₁.getElem?_push_self r
  have hchoice : s.patterns[(b.push (.choice ids)).1]? = some (.choice ids) :=
    (b₁.lowers_push r).patterns _ _ (b.getElem?_push_self _)
  refine ⟨s, (b.push (.choice ids)).1, ids, ?_, ?_, ?_, ?_⟩
  · have hfinish : (b₁.push r).2.finish (b₁.push r).1 = .ok s := by
      have hnone : (b₁.push r).2.definitions = #[] := hdefs
      simp [SchemaBuilder.finish, hnone, s, hdefs, SchemaBuilder.empty]
    rw [← hfinish]
    simp [choiceSource, SourceSchema.compile, SchemaBuilder.lower, SchemaBuilder.lowerBody,
      SchemaBuilder.lowerAll, SchemaBuilder.group, hlower, b₁, r]
  · simp [elementContent?, pattern, hroot, r]
  · simp [pattern, hchoice]
  · rw [← List.forall₂_eq_eq_eq, List.forall₂_map_left_iff, List.forall₂_map_right_iff]
    refine hids.imp fun p n hp => ?_
    obtain ⟨body, hp⟩ := hp
    have hp : s.patterns[p]? = some (.element (.name "" n) body none) :=
      ((b.lowers_push _).trans (b₁.lowers_push r)).patterns _ _ hp
    simp [simpleName?, elementName?, pattern, hp, NameClass.simple?]

/-- Elements that are listed with different names are told apart. -/
lemma flat_of_names {names : List String} (hnodup : names.Nodup)
    (h : members.map s.simpleName? = names.map fun n => some ("", n)) : s.Flat members := by
  refine ⟨fun p hp => ?_, ?_⟩
  · obtain ⟨n, -, hn⟩ := List.mem_map.mp (h ▸ List.mem_map_of_mem hp)
    rw [← hn]
    rfl
  · rw [h]
    exact hnodup.map fun m n hmn => (Prod.ext_iff.mp (Option.some.inj hmn)).2

/-- One name more than a residual is looked into. -/
def crowd : List String :=
  (List.range (Residual.depthLimit + 1)).map fun i => .ofList ('e' :: Nat.toDigits 10 i)

/-- The number that is written with some digits. -/
def numberOf (digits : List Char) : Nat :=
  digits.foldl (fun n c => 10 * n + (c.toNat - '0'.toNat)) 0

lemma nodup_crowd : crowd.Nodup := by
  have hnumber : ∀ i < Residual.depthLimit + 1, numberOf (Nat.toDigits 10 i) = i := by
    decide +kernel
  refine List.Nodup.map_on (fun i hi j hj hij => ?_) List.nodup_range
  have hdigits := (List.cons.inj (String.ofList_injective hij)).2
  rw [← hnumber i (List.mem_range.mp hi), hdigits, hnumber j (List.mem_range.mp hj)]

/-- The first of 513 alternatives is not seen, although nothing is defined by itself. -/
theorem choice_not_valid_crowd :
    ∃ s content members, (choiceSource crowd).compile = .ok s ∧
      s.elementContent? s.start = some content ∧ s.pattern content = .choice members ∧
      s.Flat members ∧ members.length = 513 ∧ some ("", "e0") ∈ members.map s.simpleName? ∧
      ((Declaration.pattern s s.start).checkContent [childNamed 1 "e0"]).isValid = false := by
  obtain ⟨s, content, members, hcompile, hc, hp, hnames⟩ := compile_choiceSource crowd
  have hflat := flat_of_names nodup_crowd hnames
  have hlen : members.length = 513 := by
    rw [← List.length_map s.simpleName?, hnames]
    simp [crowd, Residual.depthLimit]
  have hhead : (members.map s.simpleName?)[0]? = some (some ("", "e0")) := by
    rw [hnames]
    decide +kernel
  obtain ⟨p, hi, hname⟩ := Option.map_eq_some_iff.mp (List.getElem?_map ▸ hhead)
  refine ⟨s, content, members, hcompile, hc, hp, hflat, hlen, List.mem_of_getElem? hhead, ?_⟩
  have hname : s.simpleName? p = some (childNamed 1 "e0").expandedName := hname
  rw [← Bool.not_eq_true, isValid_oneOf hc hp hflat hi hname, hlen]
  decide

end Schema

end XmlAdvisor
