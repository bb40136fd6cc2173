import Fips2Go.ByteSearch

/-!
# Lines that end in CR LF

A byte string is read in lines by splitting it at every CR LF.  Lines without
a carriage return that are written one after the other, each with a CR LF,
are read back as they are, and the first blank line is the one written last.
-/

namespace CrlfLines

def crlf : Bytes := [13, 10]

/-- Split at CR LF. -/
def splitCrlf : Bytes → List Bytes
  | [] => [[]]
  | [octet] => [[octet]]
  | octet :: next :: rest =>
      if octet = 13 ∧ next = 10 then [] :: splitCrlf rest
      else
        match splitCrlf (next :: rest) with
        | [] => [[octet]]
        | line :: more => (octet :: line) :: more

/-- Each line followed by CR LF. -/
def joinCrlf (lines : List Bytes) : Bytes := lines.flatMap fun line => line ++ crlf

variable {line : Bytes} {lines : List Bytes}

@[simp] theorem joinCrlf_cons : joinCrlf (line :: lines) = line ++ crlf ++ joinCrlf lines := rfl

/-- A line ends at the first CR LF behind what has no carriage return. -/
theorem splitCrlf_line (clean : 13 ∉ line) (rest : Bytes) :
    splitCrlf (line ++ crlf ++ rest) = line :: splitCrlf rest := by
  induction line with
  | nil => simp [crlf, splitCrlf]
  | cons octet line ih =>
      have notHere : 13 ≠ octet := List.ne_of_not_mem_cons clean
      have notLater : 13 ∉ line := List.not_mem_of_not_mem_cons clean
      have ih := ih notLater
      cases remaining : line ++ crlf ++ rest with
      | nil => simp [crlf] at remaining
      | cons next more =>
          rw [remaining] at ih
          have ordinary : ¬ (octet = 13 ∧ next = 10) := fun both => notHere both.1.symm
          rw [List.cons_append, List.cons_append, remaining, splitCrlf, if_neg ordinary, ih]

/-- Lines are read back as they were written. -/
theorem splitCrlf_joinCrlf (clean : ∀ line ∈ lines, 13 ∉ line) (rest : Bytes) :
    splitCrlf (joinCrlf lines ++ rest) = lines ++ splitCrlf rest := by
  induction lines with
  | nil => rfl
  | cons line lines ih =>
      rw [joinCrlf_cons, List.append_assoc, splitCrlf_line (clean line List.mem_cons_self),
        ih fun other member => clean other (List.mem_cons_of_mem line member)]
      rfl

/-- A line break is no blank line where the next line is not empty. -/
private theorem windowPosition_break {rest : Bytes} (goesOn : ¬ crlf <+: rest) :
    Bytes.windowPosition (crlf ++ crlf) (crlf ++ rest) =
      (Bytes.windowPosition (crlf ++ crlf) rest).map (· + 2) := by
  have first : ¬ (crlf ++ crlf).isPrefixOf (13 :: 10 :: rest) := by
    rw [List.isPrefixOf_iff_prefix]
    intro front
    exact goesOn ((List.prefix_append_right_inj crlf).mp front)
  have second : ¬ (crlf ++ crlf).isPrefixOf (10 :: rest) := by
    rw [List.isPrefixOf_iff_prefix]
    intro front
    exact absurd (List.cons_prefix_cons.mp front).1 (by decide)
  have step : crlf ++ rest = 13 :: 10 :: rest := rfl
  rw [step, Bytes.windowPosition, if_neg first, Bytes.windowPosition, if_neg second,
    Option.map_map]
  rfl

/-- Behind lines that are not empty, the blank line written last is the first
one: it starts with the CR LF of the line before it. -/
theorem windowPosition_blank (written : lines ≠ []) (filled : ∀ line ∈ lines, line ≠ [])
    (clean : ∀ line ∈ lines, 13 ∉ line) :
    Bytes.windowPosition (crlf ++ crlf) (joinCrlf lines ++ crlf) =
      some ((joinCrlf lines).length - 2) := by
  induction lines with
  | nil => exact absurd rfl written
  | cons line lines ih =>
      have skip (rest : Bytes) : Bytes.windowPosition (crlf ++ crlf) (line ++ rest) =
          (Bytes.windowPosition (crlf ++ crlf) rest).map (· + line.length) :=
        Bytes.windowPosition_skip (clean line List.mem_cons_self) rest
      rw [joinCrlf_cons, List.append_assoc, List.append_assoc, skip]
      cases lines with
      | nil =>
          have blank : Bytes.windowPosition (crlf ++ crlf) (crlf ++ (joinCrlf [] ++ crlf)) =
              some 0 := by decide
          rw [blank]
          simp [joinCrlf, crlf]
      | cons next more =>
          have ih := ih (List.cons_ne_nil _ _)
            (fun other member => filled other (List.mem_cons_of_mem line member))
            (fun other member => clean other (List.mem_cons_of_mem line member))
          have nextMember : next ∈ line :: next :: more := by simp
          have goesOn : ¬ crlf <+: joinCrlf (next :: more) ++ crlf := by
            intro front
            rcases next with _ | ⟨octet, next⟩
            · exact filled [] nextMember rfl
            · have same : 13 = octet := (List.cons_prefix_cons.mp front).1
              exact clean _ nextMember (same ▸ List.mem_cons_self)
          have long : 2 ≤ (joinCrlf (next :: more)).length := by
            simp only [joinCrlf_cons, List.length_append, crlf, List.length_cons,
              List.length_nil]
            omega
          rw [windowPosition_break goesOn, ih]
          simp only [Option.map_some, Option.some.injEq, List.length_append, crlf,
            List.length_cons, List.length_nil]
          omega

end CrlfLines
