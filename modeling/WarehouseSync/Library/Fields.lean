import Mathlib.Data.List.Basic

namespace WarehouseSync
namespace Fields

/-!
# Texts that are told apart from what follows them

A field is written with a sign before each of its letters and another after the
last, so any letters can stand in it and any text after it.
-/

/-- A text in a form that tells where it ends: a mark before each of its characters,
and another one after the last. -/
def writeField : List Char -> List Char
  | [] => ['-']
  | char :: rest => '+' :: char :: writeField rest

/-- The field that a text begins with, and what follows it. -/
def readField : List Char -> Option (List Char × List Char)
  | '-' :: rest => some ([], rest)
  | '+' :: char :: rest => (readField rest).map (fun read => (char :: read.1, read.2))
  | _ => none

@[simp] theorem readField_writeField (field rest : List Char) :
    readField (writeField field ++ rest) = some (field, rest) := by
  induction field with
  | nil => rfl
  | cons char field ih =>
      change (readField (writeField field ++ rest)).map (fun read => (char :: read.1, read.2)) = _
      rw [ih]
      rfl

end Fields
end WarehouseSync
