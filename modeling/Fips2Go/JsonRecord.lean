import Mathlib.Data.List.Basic
import Mathlib.Data.List.Nodup

/-!
# Records as JSON objects

A record written into a JSON object field by field, and read back by name.  A
writer replaces the value of a name that is there already; a reader refuses a
name that is there twice and passes over the names it does not know.  What is
read of a field is what was written there last.  A reader also takes an array
that has the values in their order and no names.
-/

namespace JsonRecord

abbrev Text := List Char

inductive Json where
  | null
  | bool (value : Bool)
  | int (value : Int)
  | string (text : Text)
  | array (values : List Json)
  | object (fields : List (String × Json))

abbrev Fields := List (String × Json)

/-- The values that a name has. -/
def values (fields : Fields) (name : String) : List Json :=
  (fields.filter fun field => field.1 = name).map Prod.snd

/-! ### Writing -/

/-- An object as a writer builds it: every name is there once. -/
abbrev Record := { fields : Fields // (fields.map Prod.fst).Nodup }

def Record.empty : Record := ⟨[], List.nodup_nil⟩

/-- The object with one name set, at its place if it has one. -/
def setField (fields : Fields) (name : String) (value : Json) : Fields :=
  if name ∈ fields.map Prod.fst then
    fields.map fun field => if field.1 = name then (name, value) else field
  else fields ++ [(name, value)]

theorem map_fst_setField_of_mem {fields : Fields} {name : String} (value : Json)
    (known : name ∈ fields.map Prod.fst) :
    (setField fields name value).map Prod.fst = fields.map Prod.fst := by
  rw [setField, if_pos known, List.map_map]
  refine List.map_congr_left fun field _ => ?_
  by_cases same : field.1 = name
  · rw [Function.comp_apply, if_pos same, same]
  · rw [Function.comp_apply, if_neg same]

theorem nodup_setField {fields : Fields} (distinct : (fields.map Prod.fst).Nodup)
    (name : String) (value : Json) : ((setField fields name value).map Prod.fst).Nodup := by
  by_cases known : name ∈ fields.map Prod.fst
  · rw [map_fst_setField_of_mem value known]
    exact distinct
  · rw [setField, if_neg known, List.map_append]
    exact distinct.append (List.nodup_singleton name) (List.disjoint_singleton.mpr known)

theorem values_of_not_mem {fields : Fields} {name : String}
    (unknown : name ∉ fields.map Prod.fst) : values fields name = [] := by
  rw [values, List.map_eq_nil_iff, List.filter_eq_nil_iff]
  intro field member same
  exact unknown (List.mem_map.mpr ⟨field, member, of_decide_eq_true same⟩)

theorem values_append (first second : Fields) (name : String) :
    values (first ++ second) name = values first name ++ values second name := by
  rw [values, List.filter_append, List.map_append]
  rfl

theorem values_setField {fields : Fields} (distinct : (fields.map Prod.fst).Nodup)
    (name other : String) (value : Json) :
    values (setField fields name value) other =
      if other = name then [value] else values fields other := by
  by_cases known : name ∈ fields.map Prod.fst
  · rw [setField, if_pos known]
    induction fields with
    | nil => simp at known
    | cons field fields ih =>
        rw [List.map_cons, List.nodup_cons] at distinct
        obtain ⟨fresh, distinct⟩ := distinct
        by_cases first : field.1 = name
        · -- The name is at the front, so it is nowhere behind.
          subst first
          have rest : (fields.map fun later =>
              if later.1 = field.1 then (field.1, value) else later) = fields := by
            conv_rhs => rw [← List.map_id fields]
            refine List.map_congr_left fun later member => if_neg fun same => fresh ?_
            exact same ▸ List.mem_map_of_mem member
          rw [List.map_cons, if_pos rfl, rest]
          by_cases same : other = field.1
          · subst same
            have none : values fields field.1 = [] := values_of_not_mem fresh
            simpa [values] using none
          · simp [values, same, Ne.symm same]
        · have later : name ∈ fields.map Prod.fst := by
            simpa [Ne.symm first] using known
          have ih := ih distinct later
          rw [List.map_cons, if_neg first]
          by_cases same : other = name
          · subst same
            simpa [values, first] using ih
          · rw [if_neg same] at ih ⊢
            by_cases mine : field.1 = other
            · simpa [values, mine] using ih
            · simpa [values, mine] using ih
  · rw [setField, if_neg known, values_append]
    by_cases same : other = name
    · subst same
      rw [values_of_not_mem known, if_pos rfl]
      simp [values]
    · rw [if_neg same]
      simp [values, Ne.symm same]

def Record.put (record : Record) (name : String) (value : Json) : Record :=
  ⟨setField record.1 name value, nodup_setField record.2 name value⟩

/-- Set a name only if there is something to set it to. -/
def Record.putSome (record : Record) (name : String) : Option Json → Record
  | none => record
  | some value => record.put name value

@[simp] theorem values_empty (name : String) : values Record.empty.1 name = [] := rfl

@[simp] theorem values_put (record : Record) (name other : String) (value : Json) :
    values (record.put name value).1 other =
      if other = name then [value] else values record.1 other :=
  values_setField record.2 name other value

@[simp] theorem values_putSome (record : Record) (name other : String) (value : Option Json) :
    values (record.putSome name value).1 other =
      if other = name ∧ value.isSome then value.toList else values record.1 other := by
  cases value with
  | none => simp [Record.putSome]
  | some value => simp [Record.putSome]

/-! ### Reading -/

abbrev Decoder (α : Type) := Json → Option α

def bool? : Decoder Bool
  | .bool value => some value
  | _ => none

def string? : Decoder Text
  | .string text => some text
  | _ => none

/-- A number below `limit`. -/
def nat? (limit : Nat) : Decoder Nat
  | .int value => if 0 ≤ value ∧ value < limit then some value.toNat else none
  | _ => none

def list? {α : Type} (decode : Decoder α) : Decoder (List α)
  | .array values => values.mapM decode
  | _ => none

/-- `null` stands for no value. -/
def option? {α : Type} (decode : Decoder α) : Decoder (Option α)
  | .null => some none
  | value => (decode value).map some

/-- A record as an object, or as an array of the values of its first fields in the
order of their names. -/
def record? {α : Type} (names : List String) (decode : Fields → Option α) : Decoder α
  | .object fields => decode fields
  | .array values => if values.length ≤ names.length then decode (names.zip values) else none
  | _ => none

/-- A field that has to be there. -/
def required {α : Type} (decode : Decoder α) (name : String) (fields : Fields) : Option α :=
  match values fields name with
  | [value] => decode value
  | _ => none

/-- A field with a default. -/
def withDefault {α : Type} (default : α) (decode : Decoder α) (name : String)
    (fields : Fields) : Option α :=
  match values fields name with
  | [] => some default
  | [value] => decode value
  | _ => none

section Fields

variable {α : Type} {decode : Decoder α} {fields : Fields} {name : String} {value : Json}

theorem withDefault_of_values {default : α} (there : values fields name = [value]) :
    withDefault default decode name fields = decode value := by
  rw [withDefault, there]

theorem withDefault_of_nil {default : α} (absent : values fields name = []) :
    withDefault default decode name fields = some default := by
  rw [withDefault, absent]

end Fields

theorem list?_append {α : Type} {decode : Decoder α} {first second : List Json}
    {these those : List α} (firsts : list? decode (.array first) = some these)
    (seconds : list? decode (.array second) = some those) :
    list? decode (.array (first ++ second)) = some (these ++ those) := by
  rw [list?] at firsts seconds ⊢
  rw [List.mapM_append, firsts, seconds]
  rfl

theorem list?_map {α β : Type} {decode : Decoder α} {write : β → Json} {meaning : β → α}
    {values : List β} (reads : ∀ value ∈ values, decode (write value) = some (meaning value)) :
    list? decode (.array (values.map write)) = some (values.map meaning) := by
  rw [list?]
  induction values with
  | nil => rfl
  | cons value values ih =>
      have rest := ih fun value later => reads value (List.mem_cons_of_mem _ later)
      rw [List.map_cons, List.mapM_cons, reads value List.mem_cons_self, rest]
      rfl

theorem list?_strings (texts : List Text) :
    list? string? (.array (texts.map .string)) = some texts := by
  have read : list? string? (.array (texts.map .string)) = some (texts.map id) :=
    list?_map fun text _ => rfl
  rwa [List.map_id] at read

theorem nat?_eq_some_iff {limit : Nat} {value : Int} {number : Nat} :
    nat? limit (.int value) = some number ↔ value = number ∧ number < limit := by
  change (if 0 ≤ value ∧ value < limit then some value.toNat else none) = some number ↔ _
  split
  next within =>
    rw [Option.some.injEq]
    omega
  next beyond =>
    refine ⟨nofun, fun reads => ?_⟩
    omega

@[simp] theorem nat?_ofNat {limit number : Nat} (below : number < limit) :
    nat? limit (.int number) = some number :=
  nat?_eq_some_iff.mpr ⟨rfl, below⟩

end JsonRecord
