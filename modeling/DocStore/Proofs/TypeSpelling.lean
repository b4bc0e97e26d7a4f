import DocStore.Schema.FieldType
import Mathlib.Logic.Relation

/-! # How types are written

One type can be written in many ways: with blanks anywhere, inside of wrappers, and with the modules
in front of its constructor or of those of the wrappers. Classification does not depend on which way
it is (`FieldType.spelling_ignored_unless_overlooked`), except that it overlooks a wrapper with
modules in front of it, other than an `Option` with those of the standard library, and takes what is
written so for a document. Peeling off wrappers comes to an end on every text
(`FieldType.peels_to_peel`). -/

namespace DocStore

namespace FieldType

/-! ## Spellings -/

/-- Whether a character may stand in a name: it is not blank, does not end a name, and does not open
an array. -/
def isNameChar (c : Char) : Bool := !Unicode.isBlank c && c != '<' && c != ':' && c != '['

/-- A **name** in the text of a type. -/
@[ext]
structure Name where
  /-- Its characters. -/
  chars : List Char
  /-- All of them may stand in a name. -/
  plain : chars.all isNameChar = true
  deriving DecidableEq

namespace Name

/-- The constructor of optional values. -/
def option : Name := ⟨"Option".toList, by decide⟩

/-- The constructor of boxed values. -/
def box : Name := ⟨"Box".toList, by decide⟩

/-- The modules of the constructor of optional values in the standard library. -/
def standardOption : List Name := [⟨"std".toList, by decide⟩, ⟨"option".toList, by decide⟩]

variable (name : Name)

theorem not_mem {c : Char} (h : isNameChar c = false) : c ∉ name.chars :=
  fun hmem => Bool.false_ne_true (h.symm.trans (List.all_eq_true.mp name.plain c hmem))

end Name

/-- A text with modules in front of it. An empty name at the start leads to the root. -/
def qualified (modules : List Name) (text : List Char) : List Char :=
  modules.foldr (fun name rest => name.chars ++ ':' :: ':' :: rest) text

/-- A **wrapper** as it is written: around optional or around boxed values, with or without
modules. -/
structure Wrapper where
  /-- The modules in front of the constructor. -/
  modules : List Name
  /-- Whether values are boxed, and not optional. -/
  boxed : Bool

/-- The constructor of a wrapper. -/
def Wrapper.name (wrapper : Wrapper) : Name := if wrapper.boxed then .box else .option

/-- A text inside of a wrapper. -/
def Wrapper.wrap (wrapper : Wrapper) (text : List Char) : List Char :=
  qualified wrapper.modules (wrapper.name.chars ++ '<' :: (text ++ ['>']))

/-- A **spelling** of types: the wrappers around a type, from the outside in, and the modules in
front of its own constructor. -/
structure Spelling where
  /-- The wrappers. -/
  wrappers : List Wrapper
  /-- The modules. -/
  modules : List Name

/-- A type in a spelling. -/
def Spelling.write (spelling : Spelling) (text : List Char) : List Char :=
  spelling.wrappers.foldr Wrapper.wrap (qualified spelling.modules text)

/-- **Blanks anywhere**: a text and the same text with blanks in it. -/
inductive WithBlanks : List Char → List Char → Prop
  /-- Nothing. -/
  | nil : WithBlanks [] []
  /-- A character of the text. -/
  | keep (c : Char) {text spaced : List Char} (h : WithBlanks text spaced) :
    WithBlanks (c :: text) (c :: spaced)
  /-- A blank that is not in the text. -/
  | blank {c : Char} (hc : Unicode.isBlank c = true) {text spaced : List Char}
    (h : WithBlanks text spaced) : WithBlanks text (c :: spaced)

/-- A text without its blanks. -/
def compact (text : List Char) : List Char := text.filter fun c => !Unicode.isBlank c

/-- **A text opens with the name of a constructor**, which is followed by its arguments, if it has
any. -/
def OpensWith (text : List Char) (name : Name) : Prop :=
  ∃ arguments, compact text = name.chars ++ arguments ∧ ∀ c ∈ arguments.head?, c = '<'

/-- **A constructor is overlooked** if it is that of a wrapper with modules in front of it, other
than an option with its modules of the standard library. -/
def Overlooked (modules : List Name) (name : Name) : Prop :=
  modules ≠ [] ∧ (name = .box ∨ name = .option ∧ modules ≠ Name.standardOption)

instance (modules : List Name) (name : Name) : Decidable (Overlooked modules name) :=
  inferInstanceAs (Decidable (_ ∧ (_ ∨ _ ∧ _)))

/-- **A spelling is overlooked** if the constructor of one of its wrappers is, or that of the type
itself. -/
def Spelling.Overlooked (spelling : Spelling) (text : List Char) : Prop :=
  (∃ wrapper ∈ spelling.wrappers, FieldType.Overlooked wrapper.modules wrapper.name) ∨
    ∃ name, OpensWith text name ∧ FieldType.Overlooked spelling.modules name

/-! ## Texts with modules -/

theorem qualified_cons (part : Name) (modules : List Name) (text : List Char) :
    qualified (part :: modules) text = part.chars ++ ':' :: ':' :: qualified modules text := rfl

theorem qualified_append (modules : List Name) (first second : List Char) :
    qualified modules (first ++ second) = qualified modules first ++ second := by
  induction modules with
  | nil => rfl
  | cons part rest ih =>
    rw [qualified_cons, qualified_cons, ih, List.append_assoc, List.cons_append, List.cons_append]

/-- A character that is in no name and is no colon is not in a name with modules. -/
theorem not_mem_qualified {c : Char} (hname : isNameChar c = false) (hcolon : c ≠ ':')
    (modules : List Name) (name : Name) : c ∉ qualified modules name.chars := by
  induction modules with
  | nil => exact name.not_mem hname
  | cons part rest ih =>
    rw [qualified_cons, List.mem_append, List.mem_cons, List.mem_cons]
    rintro (hmem | rfl | rfl | hmem)
    · exact part.not_mem hname hmem
    · exact hcolon rfl
    · exact hcolon rfl
    · exact ih hmem

/-- What is in front of the first mark, and what is behind it. -/
theorem append_cons_inj_of_not_mem {mark : Char} {first second rest other : List Char}
    (hfirst : mark ∉ first) (hsecond : mark ∉ second) :
    first ++ mark :: rest = second ++ mark :: other ↔ first = second ∧ rest = other := by
  induction first generalizing second with
  | nil =>
    cases second with
    | nil => simp
    | cons c later =>
      have hc : mark ≠ c := fun h => hsecond (h ▸ List.mem_cons_self)
      simp [hc]
  | cons c earlier ih =>
    have hc : c ≠ mark := fun h => hfirst (h ▸ List.mem_cons_self)
    cases second with
    | nil => simp [hc]
    | cons d later =>
      have hlater := ih (fun h => hfirst (List.mem_cons_of_mem _ h))
        (fun h => hsecond (List.mem_cons_of_mem _ h))
      simp only [List.cons_append, List.cons.injEq, hlater, and_assoc]

/-- **A name with modules** is of one name and one list of modules only. -/
theorem qualified_inj {modules others : List Name} {name other : Name} :
    qualified modules name.chars = qualified others other.chars
      ↔ modules = others ∧ name = other := by
  have hcolon : ∀ name : Name, ':' ∉ name.chars := fun name => name.not_mem rfl
  have hne : ∀ (name part : Name) (rest : List Char),
      name.chars ≠ part.chars ++ ':' :: ':' :: rest :=
    fun name part rest heq => hcolon name (heq ▸ by simp)
  induction modules generalizing others with
  | nil =>
    cases others with
    | nil => simp [qualified, Name.ext_iff]
    | cons part rest => simpa [qualified] using hne name part _
  | cons part rest ih =>
    cases others with
    | nil => simpa [qualified] using (hne other part _).symm
    | cons first later =>
      have hlater : qualified rest name.chars = qualified later other.chars
          ↔ rest = later ∧ name = other := ih
      rw [qualified_cons, qualified_cons, append_cons_inj_of_not_mem (hcolon part) (hcolon first)]
      simp [hlater, Name.ext_iff, and_assoc]

/-! ## What a name stands for -/

/-- A name without colons precedes the first `::`. -/
theorem beforeSeparator_append {text : List Char} (h : ':' ∉ text) (rest : List Char) :
    beforeSeparator (text ++ rest) = text ++ beforeSeparator rest := by
  induction text with
  | nil => rfl
  | cons c later ih =>
    have hc : c ≠ ':' := fun heq => h (heq ▸ List.mem_cons_self)
    rw [List.cons_append, beforeSeparator, ih fun hmem => h (List.mem_cons_of_mem _ hmem),
      List.cons_append]
    exact fun _ heq => absurd heq hc

/-- Modules end in `::`, if there are any. -/
theorem qualified_nil_cases (modules : List Name) :
    qualified modules [] = [] ∨ ∃ before, qualified modules [] = before ++ [':', ':'] := by
  induction modules with
  | nil => exact Or.inl rfl
  | cons part rest ih =>
    rw [qualified_cons]
    rcases ih with hnone | ⟨before, hbefore⟩
    · exact Or.inr ⟨part.chars, by rw [hnone]⟩
    · exact Or.inr ⟨part.chars ++ ':' :: ':' :: before, by simp [hbefore]⟩

/-- **Modules do not matter to the last segment** of a name. -/
theorem lastSegment_qualified (modules : List Name) (name : Name) :
    lastSegment (qualified modules name.chars) = name.chars := by
  have hsplit : qualified modules name.chars = qualified modules [] ++ name.chars :=
    qualified_append modules [] name.chars
  have hname : ':' ∉ name.chars.reverse := by simpa using name.not_mem rfl
  have hmodules : beforeSeparator (qualified modules []).reverse = [] := by
    rcases qualified_nil_cases modules with hnone | ⟨before, hbefore⟩
    · rw [hnone]
      rfl
    · rw [hbefore, List.reverse_append]
      rfl
  rw [lastSegment, hsplit, List.reverse_append, beforeSeparator_append hname, hmodules,
    List.append_nil, List.reverse_reverse]

/-- **A constructor with modules stands for what its name stands for**, and for a document if that
is nothing. -/
theorem ofBare_qualified (modules : List Name) (name : Name) {arguments : List Char}
    (h : ∀ c ∈ arguments.head?, c = '<') :
    ofBare (qualified modules (name.chars ++ arguments))
      = (ofName? (String.ofList name.chars)).getD .document := by
  have hname : constructorName (qualified modules (name.chars ++ arguments))
      = String.ofList name.chars := by
    have hopening : ∀ c ∈ qualified modules name.chars, (c != '<') = true := fun c hmem =>
      bne_iff_ne.mpr fun heq => not_mem_qualified rfl (by decide) modules name (heq ▸ hmem)
    have harguments : arguments.takeWhile (· != '<') = [] := by
      cases arguments with
      | nil => rfl
      | cons c rest => rw [h c rfl]; rfl
    rw [constructorName, qualified_append, List.takeWhile_append_of_pos hopening, harguments,
      List.append_nil, lastSegment_qualified]
  -- a bracket at the start would be in a name or open the arguments
  have hbracket : ∀ rest, qualified modules (name.chars ++ arguments) ≠ '[' :: rest := by
    intro rest heq
    rw [qualified_append] at heq
    rcases List.append_eq_cons_iff.mp heq with ⟨-, harguments⟩ | ⟨later, hlater, -⟩
    · exact absurd (h '[' (by rw [harguments]; rfl)) (by decide)
    · exact not_mem_qualified rfl (by decide) modules name (hlater ▸ List.mem_cons_self)
  rw [ofBare, hname]
  · cases ofName? (String.ofList name.chars) <;> rfl
  · exact hbracket

/-! ## Peeling -/

/-- No wrapper opens like another one. -/
theorem eq_of_prefix_of_mem_wrappers :
    ∀ first ∈ wrappers, ∀ second ∈ wrappers, first <+: second → first = second := by
  decide

/-- **What is inside of a wrapper** is what stands between its opening and a bracket at the end. -/
theorem unwrap?_eq_some_iff {text inner : List Char} :
    unwrap? text = some inner ↔ ∃ wrapper ∈ wrappers, text = wrapper ++ (inner ++ ['>']) := by
  rw [unwrap?, Option.bind_eq_some_iff]
  constructor
  · rintro ⟨rest, hfind, hclosing⟩
    obtain ⟨wrapper, hmem, hafter⟩ := List.exists_of_findSome?_eq_some hfind
    rw [after?_eq_some_iff, withoutClosing?_eq_some_iff.mp hclosing] at hafter
    exact ⟨wrapper, hmem, hafter⟩
  · rintro ⟨wrapper, hmem, htext⟩
    refine ⟨inner ++ ['>'], ?_, withoutClosing?_eq_some_iff.mpr rfl⟩
    cases hfind : wrappers.findSome? fun wrapper => after? wrapper text with
    | none =>
      have hnone := List.findSome?_eq_none_iff.mp hfind wrapper hmem
      rw [after?_eq_some_iff.mpr htext] at hnone
      cases hnone
    | some rest =>
      -- both openings are at the start of the text, so one of them is at the start of the other
      obtain ⟨other, hother, hafter⟩ := List.exists_of_findSome?_eq_some hfind
      rw [after?_eq_some_iff] at hafter
      have hsame : wrapper = other := by
        rcases List.prefix_or_prefix_of_prefix ⟨_, htext.symm⟩ ⟨_, hafter.symm⟩ with hle | hge
        · exact eq_of_prefix_of_mem_wrappers _ hmem _ hother hle
        · exact (eq_of_prefix_of_mem_wrappers _ hother _ hmem hge).symm
      rw [htext, hsame, List.append_right_inj] at hafter
      rw [hafter]

/-- **A wrapper that peeling knows**: the constructor and its modules. -/
inductive Known : List Name → Name → Prop
  /-- An option. -/
  | option : Known [] .option
  /-- A box. -/
  | box : Known [] .box
  /-- An option with its modules of the standard library. -/
  | standardOption : Known Name.standardOption .option

theorem mem_wrappers_iff {wrapper : List Char} :
    wrapper ∈ wrappers
      ↔ ∃ modules name, Known modules name ∧ wrapper = qualified modules name.chars ++ ['<'] := by
  constructor
  · intro hmem
    rw [wrappers, List.mem_cons, List.mem_cons, List.mem_singleton] at hmem
    rcases hmem with rfl | rfl | rfl
    · exact ⟨_, _, .option, rfl⟩
    · exact ⟨_, _, .box, rfl⟩
    · exact ⟨_, _, .standardOption, rfl⟩
  · rintro ⟨modules, name, hknown, rfl⟩
    cases hknown <;> decide

/-- **A constructor with modules is that of a wrapper** just where peeling knows it and its
arguments are closed. -/
theorem unwrap?_qualified_eq_some_iff (modules : List Name) (name : Name)
    {arguments inner : List Char} (h : ∀ c ∈ arguments.head?, c = '<') :
    unwrap? (qualified modules (name.chars ++ arguments)) = some inner
      ↔ Known modules name ∧ arguments = '<' :: (inner ++ ['>']) := by
  have hopening : ∀ (modules : List Name) (name : Name), '<' ∉ qualified modules name.chars :=
    not_mem_qualified rfl (by decide)
  have hsplit : ∀ (others : List Name) (other : Name),
      qualified modules (name.chars ++ arguments)
          = qualified others other.chars ++ ['<'] ++ (inner ++ ['>'])
        ↔ (modules = others ∧ name = other) ∧ arguments = '<' :: (inner ++ ['>']) := by
    intro others other
    rw [qualified_append, List.append_assoc, List.singleton_append]
    cases arguments with
    | nil =>
      simp only [List.append_nil, List.nil_eq, reduceCtorEq, and_false, iff_false]
      exact fun heq => hopening modules name (heq ▸ by simp)
    | cons c rest =>
      rw [h c rfl, append_cons_inj_of_not_mem (hopening modules name) (hopening others other),
        qualified_inj]
      simp
  rw [unwrap?_eq_some_iff]
  constructor
  · rintro ⟨wrapper, hmem, htext⟩
    obtain ⟨others, other, hknown, rfl⟩ := mem_wrappers_iff.mp hmem
    obtain ⟨⟨rfl, rfl⟩, harguments⟩ := (hsplit others other).mp htext
    exact ⟨hknown, harguments⟩
  · rintro ⟨hknown, harguments⟩
    exact ⟨_, mem_wrappers_iff.mpr ⟨modules, name, hknown, rfl⟩,
      (hsplit modules name).mpr ⟨⟨rfl, rfl⟩, harguments⟩⟩

/-- **Peeling comes to an end on every text**: wrapper by wrapper it leads to one that is none. -/
theorem peels_to_peel (text : List Char) :
    Relation.ReflTransGen (fun outer inner => unwrap? outer = some inner) text (peel text) ∧
      unwrap? (peel text) = none := by
  induction text using peel.induct with
  | case1 text inner h ih =>
    rw [peel_of_eq_some h]
    exact ⟨ih.1.head h, ih.2⟩
  | case2 text h =>
    rw [peel_of_eq_none h]
    exact ⟨.refl, h⟩

/-! ## Spellings of a type -/

section

variable (modules : List Name) (name : Name) {arguments : List Char}
  (h : ∀ c ∈ arguments.head?, c = '<')

include h

/-- A constructor that is not peeled off stands for what its name stands for. -/
theorem ofBare_peel_of_not_known
    (hunknown : ¬ ∃ inner, Known modules name ∧ arguments = '<' :: (inner ++ ['>'])) :
    ofBare (peel (qualified modules (name.chars ++ arguments)))
      = (ofName? (String.ofList name.chars)).getD .document := by
  have hnone : unwrap? (qualified modules (name.chars ++ arguments)) = none :=
    Option.eq_none_iff_forall_ne_some.mpr fun inner hinner =>
      hunknown ⟨inner, (unwrap?_qualified_eq_some_iff modules name h).mp hinner⟩
  rw [peel_of_eq_none hnone, ofBare_qualified modules name h]

/-- Peeling that knows a constructor with and without its modules does not tell them apart. -/
theorem ofBare_peel_of_known (hqualified : Known modules name) (hplain : Known [] name) :
    ofBare (peel (qualified modules (name.chars ++ arguments)))
      = ofBare (peel (name.chars ++ arguments)) := by
  show _ = ofBare (peel (qualified [] (name.chars ++ arguments)))
  by_cases hclosed : ∃ inner, arguments = '<' :: (inner ++ ['>'])
  · obtain ⟨inner, hinner⟩ := hclosed
    rw [peel_of_eq_some ((unwrap?_qualified_eq_some_iff modules name h).mpr ⟨hqualified, hinner⟩),
      peel_of_eq_some ((unwrap?_qualified_eq_some_iff [] name h).mpr ⟨hplain, hinner⟩)]
  · rw [ofBare_peel_of_not_known modules name h fun ⟨inner, hinner⟩ => hclosed ⟨inner, hinner.2⟩,
      ofBare_peel_of_not_known [] name h fun ⟨inner, hinner⟩ => hclosed ⟨inner, hinner.2⟩]

/-- **Modules in front of a constructor do not matter** if it is not overlooked. -/
theorem ofBare_peel_of_not_overlooked (hseen : ¬ Overlooked modules name) :
    ofBare (peel (qualified modules (name.chars ++ arguments)))
      = ofBare (peel (name.chars ++ arguments)) := by
  by_cases hmodules : modules = []
  · rw [hmodules]
    rfl
  have hbox : name ≠ .box := fun hname => hseen ⟨hmodules, Or.inl hname⟩
  by_cases hoption : name = .option
  · -- the only option that is not overlooked has the modules that peeling knows
    have hstandard : modules = Name.standardOption :=
      Classical.byContradiction fun hother => hseen ⟨hmodules, Or.inr ⟨hoption, hother⟩⟩
    subst hoption hstandard
    exact ofBare_peel_of_known _ _ h .standardOption .option
  · have hunknown : ∀ others, ¬ Known others name := by
      rintro others (_ | _ | _)
      · exact hoption rfl
      · exact hbox rfl
      · exact hoption rfl
    rw [ofBare_peel_of_not_known modules name h fun ⟨_, hknown, _⟩ => hunknown _ hknown]
    exact (ofBare_peel_of_not_known [] name h fun ⟨_, hknown, _⟩ => hunknown _ hknown).symm

/-- **A constructor that is overlooked** stands for a document. -/
theorem ofBare_peel_of_overlooked (hoverlooked : Overlooked modules name) :
    ofBare (peel (qualified modules (name.chars ++ arguments))) = .document := by
  obtain ⟨hmodules, hname⟩ := hoverlooked
  have hunknown : ¬ Known modules name := by
    rintro (_ | _ | _)
    · exact hmodules rfl
    · exact hmodules rfl
    · rcases hname with hbox | ⟨-, hother⟩
      · exact absurd hbox (by decide)
      · exact hother rfl
  rw [ofBare_peel_of_not_known modules name h fun ⟨_, hknown, _⟩ => hunknown hknown]
  rcases hname with rfl | ⟨rfl, -⟩
  · rfl
  · rfl

end

/-- A wrapper without modules is peeled off. -/
theorem peel_wrap (wrapper : Wrapper) (text : List Char) :
    peel (wrapper.name.chars ++ '<' :: (text ++ ['>'])) = peel text := by
  have hknown : Known [] wrapper.name := by
    rw [Wrapper.name]
    split
    · exact .box
    · exact .option
  have hopens : ∀ c ∈ ('<' :: (text ++ ['>'])).head?, c = '<' := by simp
  exact peel_of_eq_some ((unwrap?_qualified_eq_some_iff [] wrapper.name hopens).mpr ⟨hknown, rfl⟩)

/-- **One more wrapper** does not matter if it is not overlooked. -/
theorem ofBare_peel_wrap (wrapper : Wrapper) (text : List Char) :
    (¬ Overlooked wrapper.modules wrapper.name →
      ofBare (peel (wrapper.wrap text)) = ofBare (peel text)) ∧
    (Overlooked wrapper.modules wrapper.name → ofBare (peel (wrapper.wrap text)) = .document) := by
  have hopens : ∀ c ∈ ('<' :: (text ++ ['>'])).head?, c = '<' := by simp
  constructor
  · intro hseen
    rw [Wrapper.wrap, ofBare_peel_of_not_overlooked _ _ hopens hseen, peel_wrap]
  · exact ofBare_peel_of_overlooked _ _ hopens

/-- **Any number of wrappers**, in any order. -/
theorem ofBare_peel_foldr_wrap (wrappers : List Wrapper) (text : List Char) :
    ((∀ wrapper ∈ wrappers, ¬ Overlooked wrapper.modules wrapper.name) →
      ofBare (peel (wrappers.foldr Wrapper.wrap text)) = ofBare (peel text)) ∧
    ((∃ wrapper ∈ wrappers, Overlooked wrapper.modules wrapper.name) ∨
        ofBare (peel text) = .document →
      ofBare (peel (wrappers.foldr Wrapper.wrap text)) = .document) := by
  induction wrappers with
  | nil => simp
  | cons wrapper rest ih =>
    obtain ⟨hseen, hoverlooked⟩ := ofBare_peel_wrap wrapper (rest.foldr Wrapper.wrap text)
    rw [List.foldr_cons]
    constructor
    · intro hall
      rw [hseen (hall wrapper List.mem_cons_self),
        ih.1 fun other hmem => hall other (List.mem_cons_of_mem _ hmem)]
    · intro hsome
      by_cases hfirst : Overlooked wrapper.modules wrapper.name
      · exact hoverlooked hfirst
      · rw [hseen hfirst]
        refine ih.2 (hsome.imp_left ?_)
        rintro ⟨other, hmem, hother⟩
        rcases List.mem_cons.mp hmem with rfl | hmem
        · exact absurd hother hfirst
        · exact ⟨other, hmem, hother⟩

/-! ## Blanks -/

/-- Blanks that were put in are those that are left out. -/
theorem WithBlanks.compact_eq {text spaced : List Char} (h : WithBlanks text spaced) :
    compact spaced = compact text := by
  induction h with
  | nil => rfl
  | keep c _ ih =>
    rw [compact, compact, List.filter_cons, List.filter_cons, ← compact, ← compact, ih]
  | blank hc _ ih => rw [compact, List.filter_cons_of_neg (by simpa using hc), ← compact, ih]

theorem WithBlanks.refl : ∀ text : List Char, WithBlanks text text
  | [] => .nil
  | c :: rest => .keep c (refl rest)

/-- A blank may be put in anywhere. -/
theorem WithBlanks.insert {c : Char} (hc : Unicode.isBlank c = true) (second : List Char) :
    ∀ first : List Char, WithBlanks (first ++ second) (first ++ c :: second)
  | [] => .blank hc (refl second)
  | d :: rest => .keep d (insert hc second rest)

theorem compact_append (first second : List Char) :
    compact (first ++ second) = compact first ++ compact second := List.filter_append ..

theorem Name.compact_chars (name : Name) : compact name.chars = name.chars := by
  refine List.filter_eq_self.mpr fun c hmem => ?_
  have hplain := List.all_eq_true.mp name.plain c hmem
  simp only [isNameChar, Bool.and_eq_true] at hplain
  exact hplain.1.1.1

theorem compact_qualified (modules : List Name) (text : List Char) :
    compact (qualified modules text) = qualified modules (compact text) := by
  induction modules with
  | nil => rfl
  | cons part rest ih =>
    have hcolons : compact (':' :: ':' :: qualified rest text)
        = ':' :: ':' :: compact (qualified rest text) := rfl
    rw [qualified_cons, qualified_cons, compact_append, part.compact_chars, hcolons, ih]

theorem Wrapper.compact_wrap (wrapper : Wrapper) (text : List Char) :
    compact (wrapper.wrap text) = wrapper.wrap (compact text) := by
  have hopening : compact ('<' :: (text ++ ['>'])) = '<' :: compact (text ++ ['>']) := rfl
  have hclosing : compact ['>'] = ['>'] := rfl
  rw [wrap, wrap, compact_qualified, compact_append, wrapper.name.compact_chars, hopening,
    compact_append, hclosing]

theorem Spelling.compact_write (spelling : Spelling) (text : List Char) :
    compact (spelling.write text) = spelling.write (compact text) := by
  rw [write, write, ← compact_qualified]
  induction spelling.wrappers with
  | nil => rfl
  | cons wrapper rest ih => rw [List.foldr_cons, List.foldr_cons, wrapper.compact_wrap, ih]

/-! ## Classification -/

/-- **How a type is written does not matter, unless a wrapper is overlooked.** Peeling off wrappers
comes to an end on every text. A type that is written with any wrappers around it, with modules in
front of them and of its own constructor, and with blanks anywhere, is classified like the type
itself; but if a wrapper with modules is overlooked, it is classified as a document. -/
theorem spelling_ignored_unless_overlooked (declared : String) :
    (∀ text, Relation.ReflTransGen (fun outer inner => unwrap? outer = some inner) text (peel text) ∧
      unwrap? (peel text) = none) ∧
    ∀ (written : String) (spelling : Spelling),
      (spelling.modules = [] ∨ ∃ name, OpensWith declared.toList name) →
      WithBlanks (spelling.write declared.toList) written.toList →
      (¬ spelling.Overlooked declared.toList → classify written = classify declared) ∧
      (spelling.Overlooked declared.toList → classify written = .document) := by
  refine ⟨peels_to_peel, ?_⟩
  intro written spelling hopens hblanks
  have hwritten : classify written = ofBare (peel (spelling.wrappers.foldr Wrapper.wrap
      (qualified spelling.modules (compact declared.toList)))) := by
    show ofBare (peel (compact written.toList)) = _
    rw [hblanks.compact_eq, spelling.compact_write]
    rfl
  have hdeclared : classify declared = ofBare (peel (compact declared.toList)) := rfl
  obtain ⟨hseen, hdocument⟩ := ofBare_peel_foldr_wrap spelling.wrappers
    (qualified spelling.modules (compact declared.toList))
  rw [hwritten, hdeclared]
  constructor
  · intro hnone
    rw [hseen fun wrapper hmem hwrapper => hnone (Or.inl ⟨wrapper, hmem, hwrapper⟩)]
    rcases hopens with hmodules | ⟨name, hname⟩
    · rw [hmodules]
      rfl
    · have hconstructor : ¬ Overlooked spelling.modules name :=
        fun hoverlooked => hnone (Or.inr ⟨name, hname, hoverlooked⟩)
      obtain ⟨arguments, htext, harguments⟩ := hname
      rw [htext, ofBare_peel_of_not_overlooked _ _ harguments hconstructor]
  · rintro (hwrapper | ⟨name, ⟨arguments, htext, harguments⟩, hconstructor⟩)
    · exact hdocument (Or.inl hwrapper)
    · refine hdocument (Or.inr ?_)
      rw [htext, ofBare_peel_of_overlooked _ _ harguments hconstructor]

/-- A moment in a box in an option, with modules in front of it and of the option and with a blank,
is a moment; a number in a box with modules in front of the box is a document. -/
theorem spelling_ignored_unless_overlooked_boxed :
    ∃ moment number : Spelling,
      moment = ⟨[⟨Name.standardOption, false⟩, ⟨[], true⟩], [⟨"bson".toList, by decide⟩]⟩ ∧
      number = ⟨[⟨[⟨"std".toList, by decide⟩, ⟨"boxed".toList, by decide⟩], true⟩], []⟩ ∧
      (∃ name, OpensWith "DateTime".toList name) ∧ number.modules = [] ∧
      WithBlanks (moment.write "DateTime".toList)
        "std::option::Option<Box< bson::DateTime>>".toList ∧
      WithBlanks (number.write "i32".toList) "std::boxed::Box<i32>".toList ∧
      ¬ moment.Overlooked "DateTime".toList ∧ number.Overlooked "i32".toList ∧
      classify "std::option::Option<Box< bson::DateTime>>" = classify "DateTime" ∧
      classify "std::boxed::Box<i32>" = .document ∧
      classify "DateTime" = .dateTime ∧ classify "i32" = .int32 := by
  let moment : Spelling :=
    ⟨[⟨Name.standardOption, false⟩, ⟨[], true⟩], [⟨"bson".toList, by decide⟩]⟩
  let number : Spelling :=
    ⟨[⟨[⟨"std".toList, by decide⟩, ⟨"boxed".toList, by decide⟩], true⟩], []⟩
  have hname : ∃ name, OpensWith "DateTime".toList name :=
    ⟨⟨"DateTime".toList, by decide⟩, [], rfl, by simp⟩
  have hmoment : WithBlanks (moment.write "DateTime".toList)
      "std::option::Option<Box< bson::DateTime>>".toList :=
    WithBlanks.insert (by decide) "bson::DateTime>>".toList "std::option::Option<Box<".toList
  have hnumber : WithBlanks (number.write "i32".toList) "std::boxed::Box<i32>".toList :=
    WithBlanks.refl _
  have hseen : ¬ moment.Overlooked "DateTime".toList := by
    rintro (⟨wrapper, hmem, hwrapper⟩ | ⟨name, ⟨arguments, htext, -⟩, -, rfl | ⟨rfl, -⟩⟩)
    · revert wrapper
      decide
    · exact absurd (List.cons.inj htext).1 (by decide)
    · exact absurd (List.cons.inj htext).1 (by decide)
  have hoverlooked : number.Overlooked "i32".toList :=
    Or.inl ⟨_, List.mem_cons_self, by decide⟩
  have hmomentSeen := ((spelling_ignored_unless_overlooked "DateTime").2 _ moment (Or.inr hname)
    hmoment).1 hseen
  have hnumberDocument := ((spelling_ignored_unless_overlooked "i32").2 _ number (Or.inl rfl)
    hnumber).2 hoverlooked
  have hplain : ∀ declared : String, unwrap? (compact declared.toList) = none →
      classify declared = ofBare (compact declared.toList) :=
    fun declared hnone => congrArg ofBare (peel_of_eq_none hnone)
  exact ⟨moment, number, rfl, rfl, hname, rfl, hmoment, hnumber, hseen, hoverlooked,
    hmomentSeen, hnumberDocument,
    hplain "DateTime" (by decide), hplain "i32" (by decide)⟩

end FieldType

end DocStore
