import GenericTypes.Json.Token

/-! # JSON values

Strict reading of JSON text: one value and nothing after it, no trailing commas. Members of an
object are kept in order and may repeat; whoever reads an object decides what a repetition means. -/

namespace GenericTypes

/-- A JSON value. -/
inductive Json
  | null
  | bool (value : Bool)
  /-- A number as it is written. -/
  | number (lexeme : List Char)
  /-- A string, with its content if it has one. -/
  | string (content : Option String)
  | array (items : List Json)
  | object (members : List (Option String × Json))

namespace Json

/-- What is left of a list of tokens after a value at its start was read. -/
abbrev Unread (tokens : List Token) :=
  { rest : List Token // rest.length < tokens.length }

mutual

/-- Reads one value. -/
def value? : (tokens : List Token) → Option (Json × Unread tokens)
  | .null :: rest => some (.null, ⟨rest, by simp⟩)
  | .bool value :: rest => some (.bool value, ⟨rest, by simp⟩)
  | .number lexeme :: rest => some (.number lexeme, ⟨rest, by simp⟩)
  | .string content :: rest => some (.string content, ⟨rest, by simp⟩)
  | .openBracket :: .closeBracket :: rest =>
    some (.array [], ⟨rest, by simp only [List.length_cons]; omega⟩)
  | .openBracket :: rest =>
    (items? rest).map fun (items, after) =>
      (.array items, ⟨after.1, by have := after.2; simp only [List.length_cons]; omega⟩)
  | .openBrace :: .closeBrace :: rest =>
    some (.object [], ⟨rest, by simp only [List.length_cons]; omega⟩)
  | .openBrace :: rest =>
    (members? rest).map fun (members, after) =>
      (.object members, ⟨after.1, by have := after.2; simp only [List.length_cons]; omega⟩)
  | _ => none
termination_by tokens => (tokens.length, 0)

/-- Reads the items of an array and the closing bracket, at least one item. -/
def items? (tokens : List Token) : Option (List Json × Unread tokens) :=
  match value? tokens with
  | some (item, ⟨.comma :: rest, shorter⟩) =>
    (items? rest).map fun (items, after) =>
      (item :: items,
        ⟨after.1, by have := after.2; simp only [List.length_cons] at shorter; omega⟩)
  | some (item, ⟨.closeBracket :: rest, shorter⟩) =>
    some ([item], ⟨rest, by simp only [List.length_cons] at shorter; omega⟩)
  | _ => none
termination_by (tokens.length, 1)
decreasing_by
  · exact Prod.Lex.right _ (by omega)
  · exact Prod.Lex.left _ _ (by simp only [List.length_cons] at shorter; omega)

/-- Reads the members of an object and the closing brace, at least one member. -/
def members? : (tokens : List Token) → Option (List (Option String × Json) × Unread tokens)
  | .string name :: .colon :: tokens =>
    match value? tokens with
    | some (value, ⟨.comma :: rest, shorter⟩) =>
      (members? rest).map fun (members, after) =>
        ((name, value) :: members,
          ⟨after.1, by have := after.2; simp only [List.length_cons] at shorter ⊢; omega⟩)
    | some (value, ⟨.closeBrace :: rest, shorter⟩) =>
      some ([(name, value)], ⟨rest, by simp only [List.length_cons] at shorter ⊢; omega⟩)
    | _ => none
  | _ => none
termination_by tokens => (tokens.length, 1)
decreasing_by
  · exact Prod.Lex.left _ _ (by simp only [List.length_cons]; omega)
  · exact Prod.Lex.left _ _ (by simp only [List.length_cons] at shorter ⊢; omega)

end

/-- Reads a text that holds one JSON value. -/
def ofText? (text : String) : Option Json := do
  match value? (← tokens? text.toList) with
  | some (value, ⟨[], _⟩) => some value
  | _ => none

/-- A Boolean. -/
def bool? : Json → Option Bool
  | bool value => some value
  | _ => none

/-- A string with content. -/
def string? : Json → Option String
  | string content => content
  | _ => none

/-- An array of strings with content. -/
def strings? : Json → Option (List String)
  | array items => items.mapM string?
  | _ => none

/-- A string with content, or `null` for none. -/
def nullableString? : Json → Option (Option String)
  | null => some none
  | value => value.string?.map some

/-- The values of the fields called `names`, in this order, each with `none` when it is missing. A
record is written as an object, where other members are ignored and no field may repeat, or as an
array of its fields in order, where the last ones may be missing. -/
def fields? (names : List String) : Json → Option (List (Option Json))
  | object members =>
    if members.all (·.1.isSome)
        && names.all fun name => (members.filter (·.1 == some name)).length ≤ 1 then
      some (names.map fun name => members.lookup (some name))
    else none
  | array items =>
    if items.length ≤ names.length then
      some (items.map some ++ List.replicate (names.length - items.length) none)
    else none
  | _ => none

/-- Reads a field, or gives its default when it is missing. -/
def orDefault {α : Type} (read : Json → Option α) (default : α) : Option Json → Option α
  | some value => read value
  | none => some default

end Json

end GenericTypes
