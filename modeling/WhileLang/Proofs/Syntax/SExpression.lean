import Mathlib
import WhileLang.Proofs.Lexical.WordLexing

/-!
# S-expressions are uniquely readable

An S-expression is an atom, or a head with any number of children in parentheses.  An atom
ends at the first parenthesis or space, and a closing parenthesis tells that no child
follows.  So the text of an S-expression determines the S-expression, and where a longer
text goes on behind it.
-/

namespace WhileLang

/-- A character that an atom can be written with. -/
def isAtomChar (c : Char) : Bool :=
  c ≠ '(' && c ≠ ')' && c ≠ ' '

/-- A text that stands in an S-expression without parentheses. -/
structure IsAtom (text : String) : Prop where
  notEmpty : text ≠ ""
  chars : ∀ c ∈ text.toList, isAtomChar c = true

instance (text : String) : Decidable (IsAtom text) :=
  decidable_of_iff (text ≠ "" ∧ text.toList.all isAtomChar)
    ⟨fun parts => ⟨parts.1, List.all_eq_true.mp parts.2⟩,
      fun isAtom => ⟨isAtom.notEmpty, List.all_eq_true.mpr isAtom.chars⟩⟩

/-- A text is an atom if its characters have a property that delimiters lack. -/
theorem IsAtom.of_forall {text : String} {property : Char → Prop} (opening : ¬property '(')
    (closing : ¬property ')') (space : ¬property ' ') (notEmpty : text ≠ "")
    (chars : ∀ c ∈ text.toList, property c) : IsAtom text where
  notEmpty := notEmpty
  chars := by
    intro c member
    have holds := chars c member
    have notOpening : c ≠ '(' := fun same => opening (same ▸ holds)
    have notClosing : c ≠ ')' := fun same => closing (same ▸ holds)
    have notSpace : c ≠ ' ' := fun same => space (same ▸ holds)
    simp [isAtomChar, notOpening, notClosing, notSpace]

/-- What follows an atom does not continue it. -/
def Delimits (rest : List Char) : Prop :=
  ∀ c ∈ rest.head?, isAtomChar c = false

theorem delimits_nil : Delimits [] := by
  simp [Delimits]

/-- An atom is told apart from what follows it. -/
theorem IsAtom.append_inj {first second : String} {rest rest' : List Char}
    (isFirst : IsAtom first) (isSecond : IsAtom second) (delimits : Delimits rest)
    (delimits' : Delimits rest') (same : first.toList ++ rest = second.toList ++ rest') :
    first = second ∧ rest = rest' := by
  obtain ⟨takeFirst, dropFirst⟩ := takeWhile_append_of_stops isFirst.chars delimits
  obtain ⟨takeSecond, dropSecond⟩ := takeWhile_append_of_stops isSecond.chars delimits'
  rw [same] at takeFirst dropFirst
  exact ⟨String.toList_inj.mp (takeFirst.symm.trans takeSecond), dropFirst.symm.trans dropSecond⟩

/-- No atom begins with a parenthesis. -/
theorem IsAtom.append_ne_cons {text : String} (isAtom : IsAtom text) (rest rest' : List Char) :
    text.toList ++ rest ≠ '(' :: rest' := by
  intro same
  obtain ⟨c, more, shape⟩ : ∃ c more, text.toList = c :: more :=
    List.exists_cons_of_ne_nil (String.toList_eq_nil_iff.not.mpr isAtom.notEmpty)
  have opening : c = '(' := by
    rw [shape] at same
    exact (List.cons.inj same).1
  have known : isAtomChar c = true := isAtom.chars c (shape ▸ List.mem_cons_self)
  rw [opening] at known
  exact absurd known (by decide)

/-- A tree of texts. -/
inductive SExpr where
  | atom (text : String)
  | node (head : String) (children : List SExpr)

namespace SExpr

mutual

/-- The text of an S-expression. -/
def write : SExpr → List Char
  | .atom text => text.toList
  | .node head children => '(' :: (head.toList ++ (writeAll children ++ [')']))

/-- The texts of S-expressions, each after a space. -/
def writeAll : List SExpr → List Char
  | [] => []
  | child :: rest => ' ' :: (child.write ++ writeAll rest)

end

mutual

/-- All texts in the S-expression are atoms. -/
def IsReadable : SExpr → Prop
  | .atom text => IsAtom text
  | .node head children => IsAtom head ∧ AreReadable children

/-- All texts in the S-expressions are atoms. -/
def AreReadable : List SExpr → Prop
  | [] => True
  | child :: rest => child.IsReadable ∧ AreReadable rest

end

/-- Children and the parenthesis that closes their node continue no atom. -/
theorem delimits_writeAll (children : List SExpr) (rest : List Char) :
    Delimits (writeAll children ++ ')' :: rest) := by
  cases children with
  | nil => simp [Delimits, writeAll, isAtomChar]
  | cons child children => simp [Delimits, writeAll, isAtomChar]

mutual

/-- The text of an S-expression can be told apart from what follows it. -/
theorem write_append_inj (first second : SExpr) (isFirst : first.IsReadable)
    (isSecond : second.IsReadable) {rest rest' : List Char} (delimits : Delimits rest)
    (delimits' : Delimits rest') (same : first.write ++ rest = second.write ++ rest') :
    first = second ∧ rest = rest' := by
  cases first with
  | atom text =>
      rw [IsReadable] at isFirst
      cases second with
      | atom text' =>
          rw [IsReadable] at isSecond
          rw [write, write] at same
          obtain ⟨rfl, rfl⟩ := isFirst.append_inj isSecond delimits delimits' same
          exact ⟨rfl, rfl⟩
      | node head' children' =>
          rw [write, write] at same
          exact absurd same (isFirst.append_ne_cons _ _)
  | node head children =>
      rw [IsReadable] at isFirst
      cases second with
      | atom text' =>
          rw [IsReadable] at isSecond
          rw [write, write] at same
          exact absurd same.symm (isSecond.append_ne_cons _ _)
      | node head' children' =>
          rw [IsReadable] at isSecond
          simp only [write, List.cons_append, List.append_assoc, List.nil_append] at same
          obtain ⟨rfl, behind⟩ := isFirst.1.append_inj isSecond.1 (delimits_writeAll _ _)
            (delimits_writeAll _ _) (List.cons.inj same).2
          obtain ⟨rfl, rfl⟩ := writeAll_append_inj children children' isFirst.2 isSecond.2 behind
          exact ⟨rfl, rfl⟩

/-- The children of a node can be told apart up to the parenthesis that closes it. -/
theorem writeAll_append_inj (first second : List SExpr) (areFirst : AreReadable first)
    (areSecond : AreReadable second) {rest rest' : List Char}
    (same : writeAll first ++ ')' :: rest = writeAll second ++ ')' :: rest') :
    first = second ∧ rest = rest' := by
  cases first with
  | nil =>
      cases second with
      | nil => exact ⟨rfl, (List.cons.inj same).2⟩
      | cons child' children' => simp [writeAll] at same
  | cons child children =>
      cases second with
      | nil => simp [writeAll] at same
      | cons child' children' =>
          rw [AreReadable] at areFirst areSecond
          simp only [writeAll, List.cons_append, List.append_assoc] at same
          obtain ⟨rfl, behind⟩ := write_append_inj child child' areFirst.1 areSecond.1
            (delimits_writeAll _ _) (delimits_writeAll _ _) (List.cons.inj same).2
          obtain ⟨rfl, rfl⟩ := writeAll_append_inj children children' areFirst.2 areSecond.2 behind
          exact ⟨rfl, rfl⟩

end

/-- The text of an S-expression determines it. -/
theorem write_inj {first second : SExpr} (isFirst : first.IsReadable)
    (isSecond : second.IsReadable) (same : first.write = second.write) : first = second :=
  (write_append_inj first second isFirst isSecond delimits_nil delimits_nil
    (congrArg (· ++ []) same)).1

/-- A rendering is injective if it writes S-expressions that tell apart what is rendered. -/
theorem injOn_of_write {α : Type} {render : α → String} {sexpr : α → SExpr} {plain : α → Prop}
    (writes : ∀ subject, (render subject).toList = (sexpr subject).write)
    (readable : ∀ subject, plain subject → (sexpr subject).IsReadable)
    (tellsApart : ∀ first second, plain first → plain second → sexpr first = sexpr second →
      first = second) : Set.InjOn render {subject | plain subject} := by
  intro first isFirst second isSecond same
  have texts : (sexpr first).write = (sexpr second).write := by
    rw [← writes first, same, writes second]
  exact tellsApart first second isFirst isSecond
    (write_inj (readable first isFirst) (readable second isSecond) texts)

end SExpr

end WhileLang
