import XmlAdvisor.Insertion.Snippet
import XmlAdvisor.Proofs.DefinitionReading

/-!
# What snippets expand to

A snippet is a text with places to go to.  A place is a number behind a dollar sign, in braces if it
has a default; a backslash takes the meaning from a character that has one.  Reading a snippet goes
through it character by character and keeps in mind what has begun.

* `SnippetPart` — what a snippet is read as: characters, and places with their defaults.
* `SnippetMode` — what has begun; `SnippetMode.step` — how one more character is read.
* `readSnippet` — what a whole text is read as, if it is a snippet of this kind.
* `ExpandsTo` — whether a snippet expands to a text, and has its places in order.
* `SnippetMode.Passes` — which parts a text adds, whatever comes behind it.
* `passes_plain`, `passes_escaped`, `passes_placeholder`, … — the texts that snippets are written
  with.
* `read_number` — a number ends where no digit comes next.
* `length_read_number_lt` — digits behind a number are lost.

**Kinds of snippets.**  The names of variables, choices, and places inside of defaults are not read;
there is no snippet of this kind with one of them.
-/

namespace XmlAdvisor

/-- A part of what a snippet is read as. -/
inductive SnippetPart
  | char (c : Char)
  /-- A place to go to, and what stands there at first. -/
  | place (number : Nat) (default : List Char)
  deriving DecidableEq, Repr

namespace SnippetPart

/-- What a part expands to. -/
def chars : SnippetPart → List Char
  | .char c => [c]
  | .place _ default => default

/-- The number of a place. -/
def number? : SnippetPart → Option Nat
  | .char _ => none
  | .place n _ => some n

end SnippetPart

/-- What has begun where a snippet has been read so far. -/
inductive SnippetMode
  | text
  | escape
  | dollar
  | number (n : Nat)
  | brace
  | braced (n : Nat)
  | placeholder (n : Nat) (default : List Char)
  | placeholderEscape (n : Nat) (default : List Char)
  deriving DecidableEq, Repr

namespace SnippetMode

/-- A number with one more digit. -/
def withDigit (n : Nat) (c : Char) : Nat :=
  10 * n + (c.toNat - '0'.toNat)

/-- What a character is and begins where nothing has begun. -/
def begin (c : Char) : List SnippetPart × SnippetMode :=
  if c = '$' then ([], .dollar)
  else if c = '\\' then ([], .escape)
  else ([.char c], .text)

/-- The characters that a backslash and another character stand for. -/
def unescaped (c : Char) : List Char :=
  if isSnippetMark c then [c] else ['\\', c]

/-- The parts that end with a character, and what has begun behind it. -/
def step : SnippetMode → Char → Option (List SnippetPart × SnippetMode)
  | .text, c => some (begin c)
  | .escape, c => some ((unescaped c).map .char, .text)
  | .dollar, c =>
    if c.isDigit then some ([], .number (withDigit 0 c))
    else if c = '\x7b' then some ([], .brace)
    else none
  | .number n, c =>
    if c.isDigit then some ([], .number (withDigit n c))
    else some (.place n [] :: (begin c).1, (begin c).2)
  | .brace, c => if c.isDigit then some ([], .braced (withDigit 0 c)) else none
  | .braced n, c =>
    if c.isDigit then some ([], .braced (withDigit n c))
    else if c = ':' then some ([], .placeholder n [])
    else if c = '\x7d' then some ([.place n []], .text)
    else none
  | .placeholder n default, c =>
    if c = '\x7d' then some ([.place n default], .text)
    else if c = '\\' then some ([], .placeholderEscape n default)
    else if c = '$' then none
    else some ([], .placeholder n (default ++ [c]))
  | .placeholderEscape n default, c => some ([], .placeholder n (default ++ unescaped c))

/-- The parts that end with a snippet. -/
def finish : SnippetMode → Option (List SnippetPart)
  | .text => some []
  | .escape => some [.char '\\']
  | .number n => some [.place n []]
  | _ => none

/-- The parts that are left to read. -/
def read : SnippetMode → List Char → Option (List SnippetPart)
  | m, [] => m.finish
  | m, c :: cs => (m.step c).bind fun (parts, next) => (read next cs).map (parts ++ ·)

end SnippetMode

/-- What a text is read as, if it is a snippet. -/
def readSnippet (cs : List Char) : Option (List SnippetPart) :=
  SnippetMode.text.read cs

/-- Whether a snippet expands to a text, with its places numbered from one in the order in which
they stand and at most one place with the number zero. -/
def ExpandsTo (snippet text : List Char) : Prop :=
  ∃ parts, readSnippet snippet = some parts ∧ parts.flatMap SnippetPart.chars = text ∧
    (∃ k, (parts.filterMap SnippetPart.number?).filter (· ≠ 0) = List.range' 1 k) ∧
    (parts.filterMap SnippetPart.number?).count 0 ≤ 1

namespace SnippetMode

/-! ## Texts one after another -/

/-- Whether a text leads from one mode to another and adds some parts, whatever comes behind it. -/
def Passes (m : SnippetMode) (w : List Char) (parts : List SnippetPart) (m' : SnippetMode) : Prop :=
  ∀ rest, m.read (w ++ rest) = (m'.read rest).map (parts ++ ·)

variable {m m' m'' : SnippetMode} {w v : List Char} {parts more : List SnippetPart} {c : Char}

lemma passes_nil (m : SnippetMode) : m.Passes [] [] m :=
  fun _ => Option.map_id'.symm

lemma Passes.append (h : m.Passes w parts m') (h' : m'.Passes v more m'') :
    m.Passes (w ++ v) (parts ++ more) m'' := by
  intro rest
  rw [List.append_assoc, h, h', Option.map_map]
  exact congrArg (fun f => Option.map f (m''.read rest))
    (funext fun ps => (List.append_assoc ..).symm)

lemma passes_step (h : m.step c = some (parts, m')) : m.Passes [c] parts m' := by
  intro rest
  rw [List.singleton_append, read, h]
  rfl

lemma Passes.cons (h : m.step c = some (parts, m')) (h' : m'.Passes w more m'') :
    m.Passes (c :: w) (parts ++ more) m'' :=
  (passes_step h).append h'

/-- A character that ends no part. -/
lemma Passes.begun (h : m.step c = some ([], m')) (h' : m'.Passes w parts m'') :
    m.Passes (c :: w) parts m'' :=
  .cons h h'

/-! ## Characters -/

lemma step_text (h : isSnippetMark c = false) : text.step c = some ([.char c], .text) := by
  have hdollar : c ≠ '$' := fun heq => by simp [heq, isSnippetMark] at h
  have hescape : c ≠ '\\' := fun heq => by simp [heq, isSnippetMark] at h
  rw [step, begin, if_neg hdollar, if_neg hescape]

/-- Characters without a meaning stand for themselves. -/
lemma passes_plain (h : ∀ c ∈ w, isSnippetMark c = false) : text.Passes w (w.map .char) .text := by
  induction w with
  | nil => exact passes_nil .text
  | cons c w ih =>
      exact .cons (step_text (h c (List.mem_cons_self ..)))
        (ih fun d hd => h d (List.mem_cons_of_mem c hd))

/-- Escaped characters stand for what they are. -/
lemma passes_escaped (w : List Char) : text.Passes (escapeSnippet w) (w.map .char) .text := by
  induction w with
  | nil => exact passes_nil .text
  | cons c w ih =>
      rw [escapeSnippet]
      split_ifs with hmark
      · have hstep : escape.step c = some ([.char c], .text) := by
          rw [step, unescaped, if_pos hmark]
          rfl
        exact .begun rfl (.cons hstep ih)
      · exact .cons (step_text (Bool.eq_false_of_not_eq_true hmark)) ih

/-- So they do in a default, up to the brace at its end. -/
lemma passes_placeholder (n : Nat) (default w : List Char) :
    (placeholder n default).Passes (escapeSnippet w ++ ['\x7d'])
    [.place n (default ++ w)] .text := by
  induction w generalizing default with
  | nil =>
      rw [List.append_nil]
      exact passes_step rfl
  | cons c w ih =>
      have hmore := ih (default ++ [c])
      rw [List.append_assoc, List.singleton_append] at hmore
      rw [escapeSnippet]
      split_ifs with hmark
      · have hstep : (placeholderEscape n default).step c =
            some ([], .placeholder n (default ++ [c])) := by
          rw [step, unescaped, if_pos hmark]
        exact .begun rfl (.begun hstep hmore)
      · have hne {x : Char} (hx : isSnippetMark x = true) : c ≠ x := fun heq => hmark (heq ▸ hx)
        have hstep : (placeholder n default).step c =
            some ([], .placeholder n (default ++ [c])) := by
          rw [step, if_neg (hne rfl), if_neg (hne rfl), if_neg (hne rfl)]
        exact .begun hstep hmore

/-! ## Numbers -/

/-- Digits go on with a number that has begun in one of the modes for numbers. -/
lemma passes_digits {mode : Nat → SnippetMode}
    (hmode : ∀ n c, c.isDigit = true → (mode n).step c = some ([], mode (withDigit n c)))
    (hw : ∀ c ∈ w, c.isDigit = true) (n : Nat) :
    (mode n).Passes w [] (mode (Nat.ofDigitChars 10 w n)) := by
  induction w generalizing n with
  | nil => exact passes_nil _
  | cons c w ih =>
      rw [Nat.ofDigitChars_cons]
      exact .begun (hmode n c (hw c (List.mem_cons_self ..)))
        (ih (fun d hd => hw d (List.mem_cons_of_mem c hd)) (withDigit n c))

/-- A number is read behind the character that it begins behind. -/
lemma passes_toDigits {mode : Nat → SnippetMode}
    (hmode : ∀ n c, c.isDigit = true → (mode n).step c = some ([], mode (withDigit n c)))
    (hfirst : ∀ c, c.isDigit = true → m.step c = some ([], mode (withDigit 0 c))) (n : Nat) :
    m.Passes (toString n).toList [] (mode n) := by
  have hdigit : ∀ c ∈ Nat.toDigits 10 n, c.isDigit = true :=
    fun c hc => Nat.isDigit_of_mem_toDigits (by decide) (by decide) hc
  have hvalue : Nat.ofDigitChars 10 (Nat.toDigits 10 n) 0 = n := Nat.ofDigitChars_ten_toDigits
  rw [Nat.toString_eq_repr, Nat.toList_repr]
  cases hdigits : Nat.toDigits 10 n with
  | nil => exact absurd hdigits Nat.toDigits_ne_nil
  | cons c w =>
      rw [hdigits] at hdigit hvalue
      rw [Nat.ofDigitChars_cons] at hvalue
      have hpasses := passes_digits hmode (fun d hd => hdigit d (List.mem_cons_of_mem c hd))
        (withDigit 0 c)
      rw [show Nat.ofDigitChars 10 w (withDigit 0 c) = n from hvalue] at hpasses
      exact .begun (hfirst c (hdigit c (List.mem_cons_self ..))) hpasses

lemma number_step (n : Nat) (c : Char) (h : c.isDigit = true) :
    (number n).step c = some ([], .number (withDigit n c)) := by
  rw [step, if_pos h]

/-- A place without a default has begun behind its number. -/
lemma passes_dollar (n : Nat) : text.Passes ('$' :: (toString n).toList) [] (.number n) := by
  have hfirst (c : Char) (hc : c.isDigit = true) :
      dollar.step c = some ([], .number (withDigit 0 c)) := by
    rw [step, if_pos hc]
  exact .begun rfl (passes_toDigits number_step hfirst n)

/-- A place with a default is one part. -/
lemma passes_braced (n : Nat) (w : List Char) : text.Passes
    ('$' :: '\x7b' :: ((toString n).toList ++ ':' :: (escapeSnippet w ++ ['\x7d'])))
    [.place n w] .text := by
  have hfirst (c : Char) (hc : c.isDigit = true) :
      brace.step c = some ([], .braced (withDigit 0 c)) := by
    rw [step, if_pos hc]
  have hmode (n : Nat) (c : Char) (hc : c.isDigit = true) :
      (braced n).step c = some ([], .braced (withDigit n c)) := by
    rw [step, if_pos hc]
  have hdefault : (braced n).Passes (':' :: (escapeSnippet w ++ ['\x7d'])) [.place n w] .text :=
    .begun rfl (passes_placeholder n [] w)
  exact .begun rfl (.begun rfl ((passes_toDigits hmode hfirst n).append hdefault))

/-- A number ends where no digit comes next. -/
lemma read_number (n : Nat) {rest : List Char} (h : Ahead (·.isDigit = false) rest) :
    (number n).read rest = (text.read rest).map (.place n [] :: ·) := by
  cases rest with
  | nil => rfl
  | cons c rest =>
      have hstep : (number n).step c = some (.place n [] :: (begin c).1, (begin c).2) := by
        rw [step, h c rfl]
        rfl
      rw [read, hstep, read, step, Option.bind_some, Option.bind_some, Option.map_map]
      rfl

/-! ## Numbers that run on -/

lemma not_mark_of_isDigit (h : c.isDigit = true) : isSnippetMark c = false := by
  rw [← Bool.not_eq_true]
  intro hmark
  simp only [isSnippetMark, Bool.or_eq_true, beq_iff_eq] at hmark
  rcases hmark with (rfl | rfl) | rfl <;> cases h

lemma read_plain (h : isSnippetMark c = false) (cs : List Char) :
    text.read (c :: cs) = (text.read cs).map (.char c :: ·) :=
  passes_step (step_text h) cs

/-- Behind a number, a text expands to no more than by itself. -/
lemma length_read_number_le {n : Nat} {cs : List Char} (h : (number n).read cs = some parts) :
    ∃ more, text.read cs = some more ∧
      (parts.flatMap SnippetPart.chars).length ≤ (more.flatMap SnippetPart.chars).length := by
  induction cs generalizing n parts with
  | nil =>
      cases h
      exact ⟨[], rfl, Nat.le_refl _⟩
  | cons c cs ih =>
      by_cases hc : c.isDigit = true
      · rw [read, number_step n c hc] at h
        obtain ⟨behind, hbehind, rfl⟩ := Option.map_eq_some_iff.mp h
        obtain ⟨more, hmore, hle⟩ := ih hbehind
        refine ⟨.char c :: more, by rw [read_plain (not_mark_of_isDigit hc), hmore]; rfl, ?_⟩
        exact Nat.le_succ_of_le hle
      · rw [read_number n fun d hd => by
          rw [List.head?_cons, Option.mem_some_iff] at hd
          exact hd ▸ Bool.eq_false_of_not_eq_true hc] at h
        obtain ⟨more, hmore, rfl⟩ := Option.map_eq_some_iff.mp h
        exact ⟨more, hmore, Nat.le_refl _⟩

/-- If it begins with a digit, it expands to less. -/
lemma length_read_number_lt {n : Nat} {cs : List Char} (hc : c.isDigit = true)
    (h : (number n).read (c :: cs) = some parts) : ∃ more, text.read (c :: cs) = some more ∧
      (parts.flatMap SnippetPart.chars).length < (more.flatMap SnippetPart.chars).length := by
  rw [read, number_step n c hc] at h
  obtain ⟨behind, hbehind, rfl⟩ := Option.map_eq_some_iff.mp h
  obtain ⟨more, hmore, hle⟩ := length_read_number_le hbehind
  exact ⟨.char c :: more, by rw [read_plain (not_mark_of_isDigit hc), hmore]; rfl,
    Nat.lt_succ_of_le hle⟩

end SnippetMode

end XmlAdvisor
