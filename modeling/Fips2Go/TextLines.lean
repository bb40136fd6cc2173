import Mathlib.Data.List.Basic
import Mathlib.Data.List.DropRight

/-!
# Texts in lines

Texts are lists of characters.  This file has the line and field operations of
a Kotlin string that a line-based format is read with, and shows that they
recover what was written: lines put together with line feeds are split into
the same lines, and text without white space at its ends is its own trimming.
-/

namespace TextLines

abbrev Text := List Char

/-- `Char.isWhitespace`: the Unicode separators and the white-space controls. -/
def isWhitespace (char : Char) : Bool :=
  let code := char.toNat
  (0x09 ≤ code ∧ code ≤ 0x0d) ∨ (0x1c ≤ code ∧ code ≤ 0x20) ∨ code = 0xa0 ∨ code = 0x1680 ∨
    (0x2000 ≤ code ∧ code ≤ 0x200a) ∨ code = 0x2028 ∨ code = 0x2029 ∨ code = 0x202f ∨
    code = 0x205f ∨ code = 0x3000

/-- `\s` of a regular expression: the ASCII white space of `java.util.regex`, where
Android's own engine takes every Unicode white space. -/
def isSpace (char : Char) : Bool :=
  (0x09 ≤ char.toNat ∧ char.toNat ≤ 0x0d) ∨ char.toNat = 0x20

/-- A word character of a regular expression, again the ASCII ones only; Android's engine
also takes the letters, digits and marks of other scripts. -/
def isWord (char : Char) : Bool := char.isAlphanum || char = '_'

def trim (text : Text) : Text := (text.dropWhile isWhitespace).rdropWhile isWhitespace

def isBlank (text : Text) : Bool := text.all isWhitespace

def isBreak (char : Char) : Bool := char = '\n' || char = '\r'

/-- `lines()`: split at CR LF, LF and CR. -/
def lines : Text → List Text
  | [] => [[]]
  | [char] => if isBreak char then [[], []] else [[char]]
  | char :: next :: rest =>
      if char = '\r' ∧ next = '\n' then [] :: lines rest
      else if isBreak char then [] :: lines (next :: rest)
      else
        match lines (next :: rest) with
        | [] => [[char]]
        | line :: more => (char :: line) :: more

/-- `split(Regex("\s+"))`: the fields between runs of white space. -/
def splitSpaces : Text → List Text
  | [] => [[]]
  | char :: rest =>
      if isSpace char then
        if rest.head?.any isSpace then splitSpaces rest else [] :: splitSpaces rest
      else
        match splitSpaces rest with
        | [] => [[char]]
        | field :: more => (char :: field) :: more

/-- Each line followed by a line feed. -/
def unlines (texts : List Text) : Text := texts.flatMap fun line => line ++ ['\n']

def Unbroken (line : Text) : Prop := ∀ char ∈ line, isBreak char = false

theorem unbroken_of_any {line : Text} (none : line.any isBreak = false) : Unbroken line := by
  simpa [Unbroken] using none

@[simp] theorem unlines_nil : unlines [] = [] := rfl

@[simp] theorem unlines_cons (line : Text) (texts : List Text) :
    unlines (line :: texts) = line ++ '\n' :: unlines texts := by
  simp [unlines]

theorem Unbroken.tail {char : Char} {line : Text} (unbroken : Unbroken (char :: line)) :
    Unbroken line :=
  fun other member => unbroken other (List.mem_cons_of_mem char member)

theorem not_break {char : Char} (plain : isBreak char = false) : char ≠ '\n' ∧ char ≠ '\r' := by
  simpa [isBreak] using plain

/-- A line up to its line feed is the first of the lines. -/
theorem lines_append {line : Text} (unbroken : Unbroken line) (rest : Text) :
    lines (line ++ '\n' :: rest) = line :: lines rest := by
  induction line with
  | nil =>
      cases rest with
      | nil => rfl
      | cons next rest => simp [lines, isBreak]
  | cons char line ih =>
      have plain := unbroken char List.mem_cons_self
      have ih := ih unbroken.tail
      cases line with
      | nil =>
          simp only [List.nil_append, List.cons_append] at ih ⊢
          simp [lines, plain, (not_break plain).2, ih]
      | cons next line =>
          simp only [List.cons_append] at ih ⊢
          simp [lines, plain, (not_break plain).2, ih]

theorem lines_unlines {texts : List Text} (unbroken : ∀ line ∈ texts, Unbroken line) :
    lines (unlines texts) = texts ++ [[]] := by
  induction texts with
  | nil => rfl
  | cons line texts ih =>
      rw [unlines_cons, lines_append (unbroken line List.mem_cons_self),
        ih fun other member => unbroken other (List.mem_cons_of_mem line member)]
      rfl

/-- Text with no white space at either end. -/
theorem trim_eq_self {text : Text}
    (front : ∀ char, text.head? = some char → isWhitespace char = false)
    (back : ∀ char, text.getLast? = some char → isWhitespace char = false) : trim text = text := by
  have kept : text.dropWhile isWhitespace = text := by
    cases text with
    | nil => rfl
    | cons first rest => rw [List.dropWhile_cons_of_neg (by simp [front first rfl])]
  rw [trim, kept]
  rcases List.eq_nil_or_concat text with rfl | ⟨rest, last, rfl⟩
  · rfl
  · rw [List.concat_eq_append]
    exact List.rdropWhile_concat_neg _ _ _ (by simp [back last (by simp)])

/-- Two fields with one space between them. -/
theorem splitSpaces_pair {first second : Text} (firstSolid : ∀ char ∈ first, isSpace char = false)
    (secondSolid : ∀ char ∈ second, isSpace char = false) (nonempty : second ≠ []) :
    splitSpaces (first ++ ' ' :: second) = [first, second] := by
  have single : ∀ field : Text, (∀ char ∈ field, isSpace char = false) →
      splitSpaces field = [field] := by
    intro field solid
    induction field with
    | nil => rfl
    | cons char field ih =>
        simp [splitSpaces, solid char List.mem_cons_self,
          ih fun other member => solid other (List.mem_cons_of_mem char member)]
  induction first with
  | nil =>
      cases second with
      | nil => exact absurd rfl nonempty
      | cons char second =>
          have solid := secondSolid char List.mem_cons_self
          rw [List.nil_append, splitSpaces, if_pos (by decide), if_neg (by simp [solid]),
            single _ secondSolid]
  | cons char first ih =>
      simp [splitSpaces, firstSolid char List.mem_cons_self,
        ih fun other member => firstSolid other (List.mem_cons_of_mem char member)]

end TextLines
