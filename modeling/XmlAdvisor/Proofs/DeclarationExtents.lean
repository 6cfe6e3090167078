import XmlAdvisor.Proofs.DeclarationEnds

/-!
# Reading keeps to a declaration

Declarations of elements and of attributes are read step by step, and each step keeps to the
declaration it is in.  What is read of a declaration is therefore the same whatever comes behind it,
and what cannot be read is skipped up to the same place.

* `particle_inside`, `group_inside`, `members_inside` — the content of an element.
* `attributeType_inside`, `defaultDeclaration_inside`, `attributeList_closes` — the attributes.
* **`elementDeclaration_closes`**, **`attributesDeclaration_closes`** — a declaration that is read
  ends where a skipped one does.
* `Closes.run_append`, `Closes.skipDeclaration?_eq` — what this says of a declaration with more
  behind it.

**Steps.**  A part of `n` characters is read within `n + 1` steps where each step reads one
character at least, and within `2 * n + 1` where every second one does.
-/

namespace XmlAdvisor

namespace DtdScan

variable {n : Nat}

/-! ## The content of an element -/

lemma separator_inside : Inside n separator separator :=
  Follows.taken (by decide) (fun _ _ => .pure ',') (Follows.needed (by decide) fun _ _ => .pure '|')

lemma separator_length_lt {cs rest : List Char} {sep : Char}
    (h : separator.run cs = some (sep, rest)) :
    rest.length + 1 ≤ cs.length := by
  obtain ⟨t, mid, htake, h⟩ := exists_of_run_bind h
  have htaken := take_length_le htake
  cases t with
  | true =>
      cases h
      exact htaken
  | false =>
      obtain ⟨u, mid, hneed, h⟩ := exists_of_run_bind h
      cases h
      exact Nat.le_trans (need_length_le hneed) htaken

lemma occurrence_inside : Inside n occurrence occurrence :=
  Follows.taken (by decide) (fun _ _ => .pure _) <|
    Follows.taken (by decide) (fun _ _ => .pure _) <|
      Follows.taken (by decide) (fun _ _ => .pure _) (.pure _)

lemma alternatives_inside {s t : Nat} (hs : n + 1 ≤ s) (ht : n + 1 ≤ t) :
    Inside n (alternatives s) (alternatives t) := by
  induction s generalizing n t with
  | zero => cases hs
  | succ s ih =>
      obtain ⟨t, rfl⟩ := Nat.exists_eq_add_one_of_ne_zero (by omega : t ≠ 0)
      rw [alternatives, alternatives]
      refine blanks_inside.bind fun _ => name_inside.bind fun m => blanks_inside.bind fun _ => ?_
      refine Follows.taken (by decide) (fun _ _ => .pure [m]) ?_
      refine Follows.needed (by decide) fun j (hj : n = j + 1) => ?_
      exact (ih (by omega) (by omega)).last _

lemma mixedRest_inside {s t : Nat} (hs : n + 1 ≤ s) (ht : n + 1 ≤ t) :
    Inside n (mixedRest s) (mixedRest t) := by
  induction s generalizing n t with
  | zero => cases hs
  | succ s ih =>
      obtain ⟨t, rfl⟩ := Nat.exists_eq_add_one_of_ne_zero (by omega : t ≠ 0)
      rw [mixedRest, mixedRest]
      refine blanks_inside.bind fun _ => ?_
      refine Follows.taken (by decide) (fun _ _ => (take_inside (by decide)).last fun _ => []) ?_
      refine Follows.needed (by decide) fun j (hj : n = j + 1) => ?_
      refine blanks_inside.bind fun _ => name_inside.bind fun m => ?_
      exact (ih (by omega) (by omega)).last _

-- The induction is on the steps of the first run.  A group has its step from the parenthesis in
-- front of it, and a further member from the separator, each of which is one character less to
-- read.
mutual
lemma particle_inside {s t n : Nat} (hs : 2 * n + 1 ≤ s) (ht : 2 * n + 1 ≤ t) :
    Inside n (particle s) (particle t) := by
  obtain ⟨s, rfl⟩ := Nat.exists_eq_add_one_of_ne_zero (by omega : s ≠ 0)
  obtain ⟨t, rfl⟩ := Nat.exists_eq_add_one_of_ne_zero (by omega : t ≠ 0)
  rw [particle, particle]
  refine blanks_inside.bind fun _ => ?_
  refine Follows.taken (by decide) (fun j (hj : n = j + 1) => group_inside (by omega) (by omega)) ?_
  exact name_inside.bind fun m => occurrence_inside.last _
termination_by s

lemma group_inside {s t n : Nat} (hs : 2 * n + 2 ≤ s) (ht : 2 * n + 2 ≤ t) :
    Inside n (group s) (group t) := by
  obtain ⟨s, rfl⟩ := Nat.exists_eq_add_one_of_ne_zero (by omega : s ≠ 0)
  obtain ⟨t, rfl⟩ := Nat.exists_eq_add_one_of_ne_zero (by omega : t ≠ 0)
  rw [group, group]
  refine (particle_inside (by omega) (by omega)).bind fun first => ?_
  refine (members_inside none (by omega) (by omega)).bind fun (sep, more) => ?_
  exact .ite (occurrence_inside.last _) (occurrence_inside.last _)
termination_by s

lemma members_inside {s t n : Nat} (before : Option Char) (hs : 2 * n + 1 ≤ s)
    (ht : 2 * n + 1 ≤ t) :
    Inside n (members s before) (members t before) := by
  obtain ⟨s, rfl⟩ := Nat.exists_eq_add_one_of_ne_zero (by omega : s ≠ 0)
  obtain ⟨t, rfl⟩ := Nat.exists_eq_add_one_of_ne_zero (by omega : t ≠ 0)
  rw [members, members]
  refine blanks_inside.bind fun _ => ?_
  refine Follows.taken (by decide) (fun _ _ => .pure (before, [])) ?_
  refine separator_inside.bindBehind (d := fun _ => 1) (fun _ h => separator_length_lt h) ?_
  rintro sep j rfl
  -- what is read behind the separator stands in both branches of the check on it
  have hmore : Inside j (particle s >>= fun p => members s (some sep) >>= fun (last, more) =>
      pure (last, p :: more)) (particle t >>= fun p => members t (some sep) >>= fun (last, more) =>
      pure (last, p :: more)) :=
    (particle_inside (by omega) (by omega)).bind fun p =>
      (members_inside (some sep) (by omega) (by omega)).last fun (last, more) => (last, p :: more)
  exact .ite (Follows.failure.bind fun _ => hmore) hmore
termination_by s
end

lemma contentSpec_inside : Inside n contentSpec contentSpec := by
  rw [contentSpec]
  refine Follows.taken (by decide) (fun _ _ => .pure _) ?_
  refine Follows.taken (by decide) (fun _ _ => .pure _) ?_
  refine Follows.needed (by decide) fun j _ => blanks_inside.bind fun _ => ?_
  refine Follows.taken (by decide) (fun i _ => ?_) ?_
  · exact Follows.within fun i s t hs ht => (mixedRest_inside (by omega) (by omega)).last _
  · exact Follows.within fun i s t hs ht => (group_inside hs ht).last _

/-- A declaration of an element that is read ends where a skipped one does. -/
lemma elementDeclaration_closes : Closes n elementDeclaration elementDeclaration := by
  rw [elementDeclaration]
  refine someBlanks_inside.bind fun _ => name_inside.bind fun m =>
    someBlanks_inside.bind fun _ => ?_
  exact contentSpec_inside.bind fun content => blanks_inside.bind fun _ =>
    need_closes.last _

/-! ## Attributes -/

lemma attributeType_inside : Inside n attributeType attributeType := by
  rw [attributeType]
  refine Follows.taken (by decide) (fun j _ => ?_) (name_inside.bind fun m => ?_)
  · exact Follows.within fun i s t hs ht => (alternatives_inside (by omega) (by omega)).last _
  · split
    case h_9 =>
      refine blanks_inside.bind fun _ => Follows.needed (by decide) fun j _ => ?_
      exact Follows.within fun i s t hs ht => (alternatives_inside (by omega) (by omega)).last _
    case h_10 => exact .failure
    all_goals exact .pure _

lemma defaultDeclaration_inside : Inside n defaultDeclaration defaultDeclaration := by
  rw [defaultDeclaration]
  refine Follows.taken (by decide) (fun _ _ => .pure _) ?_
  refine Follows.taken (by decide) (fun _ _ => .pure _) ?_
  refine Follows.taken (by decide) (fun _ _ => ?_) (quotedText_inside.last _)
  exact blanks_inside.bind fun _ => quotedText_inside.last _

lemma attributeList_closes {s t : Nat} (hs : n + 1 ≤ s) (ht : n + 1 ≤ t) :
    Closes n (attributeList s) (attributeList t) := by
  induction s generalizing n t with
  | zero => cases hs
  | succ s ih =>
      obtain ⟨t, rfl⟩ := Nat.exists_eq_add_one_of_ne_zero (by omega : t ≠ 0)
      rw [attributeList, attributeList]
      refine blanks_inside.bind fun _ => Closes.ended ?_ []
      refine name_inside.bindBehind (d := fun _ => 1) (fun _ h => name_length_lt h) ?_
      rintro m j rfl
      refine someBlanks_inside.bind fun _ => attributeType_inside.bind fun type => ?_
      refine someBlanks_inside.bind fun _ => defaultDeclaration_inside.bind fun default => ?_
      exact (ih (by omega) (by omega)).last _

/-- So does a declaration of attributes. -/
lemma attributesDeclaration_closes : Closes n attributesDeclaration attributesDeclaration := by
  rw [attributesDeclaration]
  refine someBlanks_inside.bind fun _ => name_inside.bind fun m => ?_
  exact Follows.within fun i s t hs ht => (attributeList_closes (by omega) (by omega)).last _

/-! ## A declaration with more behind it -/

variable {α : Type} {m : DtdScan α} {text cs rest : List Char}

/-- What is read of a declaration is the same whatever comes behind it, and all of it is left. -/
lemma Closes.run_append (h : ∀ n, Closes n m m) (hends : EndsDeclaration text) (rest : List Char) :
    m.run (text ++ rest) = (m.run text).map fun (a, _) => (a, rest) := by
  rw [endsDeclaration_iff] at hends
  rw [(h text.length).prolongs (Nat.le_refl _) hends rest]
  cases hrun : m.run text with
  | none => rfl
  | some read =>
      obtain ⟨a, behind⟩ := read
      have hskip := ((h text.length).skips (Nat.le_refl _) hrun).2
      rw [hends, Option.some.injEq] at hskip
      rw [← hskip]
      rfl

/-- What is left is what is behind the declaration. -/
lemma Closes.skipDeclaration?_eq (h : ∀ n, Closes n m m) {a : α}
    (hrun : m.run cs = some (a, rest)) :
    skipDeclaration? none cs = some rest :=
  ((h cs.length).skips (Nat.le_refl _) hrun).2

end DtdScan

end XmlAdvisor
