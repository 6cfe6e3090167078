/-!
# Name classes

A name class is a set of names, each a namespace and a local name; the empty namespace is none.
`nothing` is the empty class, so that a class without exceptions is one that excepts nothing.
-/

namespace XmlAdvisor

/-- A set of names. -/
inductive NameClass
  /-- No name at all. -/
  | nothing
  | name (ns localName : String)
  /-- Any name but those of another class. -/
  | anyName (except : NameClass)
  /-- Any name in one namespace but those of another class. -/
  | nsName (ns : String) (except : NameClass)
  | choice (a b : NameClass)
  deriving DecidableEq, Repr, Inhabited

namespace NameClass

/-- Whether a name belongs to the class. -/
def contains : NameClass → (ns localName : String) → Bool
  | .nothing, _, _ => false
  | .name n l, ns, localName => n == ns && l == localName
  | .anyName except, ns, localName => !except.contains ns localName
  | .nsName n except, ns, localName => n == ns && !except.contains ns localName
  | .choice a b, ns, localName => a.contains ns localName || b.contains ns localName

/-- The namespace and the local name of a class that is written as one name. -/
def simple? : NameClass → Option (String × String)
  | .name ns localName => some (ns, localName)
  | _ => none

/-- The local name of a class, or a star if it is not written as one name. -/
def label (c : NameClass) : String :=
  match c.simple? with
  | some (_, localName) => localName
  | none => "*"

/-- The union of classes; none without any. -/
def union? : List NameClass → Option NameClass
  | [] => none
  | c :: more => some (more.foldl .choice c)

/-- A class that is written as one name contains that name and no other. -/
theorem contains_of_simple? {c : NameClass} {n l : String} (h : c.simple? = some (n, l))
    (ns localName : String) : c.contains ns localName = (n == ns && l == localName) := by
  cases c <;> simp_all [simple?, contains]

end NameClass

end XmlAdvisor
