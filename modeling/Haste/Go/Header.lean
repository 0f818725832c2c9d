import Haste.Go.Strings
import Mathlib.Logic.Function.Basic

/-!
# HTTP headers

A header maps canonical field names to their values, in the order they are
sent.  A name without values is absent.
-/

namespace Haste
namespace Go

/-- `http.Header`. -/
def Header := String → List Bytes

namespace Header

variable (header : Header) (name other : String) (value : Bytes)

/-- The values of a name. -/
def values : List Bytes := header name

/-- A header without fields. -/
def empty : Header := fun _ => []

/-- `Header.Get`: the first value, or the empty string. -/
def get : Bytes := (header.values name).headD []

/-- `Header.Set`. -/
def set : Header := Function.update header name [value]

/-- `Header.Add`. -/
def add : Header := Function.update header name (header.values name ++ [value])

/-- `Header.Del`. -/
def del : Header := Function.update header name []

/-- The fields of `later` put into the header, name by name. -/
def merge (later : Header) : Header :=
  fun name => if later.values name = [] then header.values name
    else later.values name

@[ext] theorem ext
    {left right : Header}
    (same : ∀ name, left.values name = right.values name) :
    left = right :=
  funext same

@[simp] theorem values_empty : empty.values name = [] := rfl

@[simp] theorem values_set_self : (header.set name value).values name = [value] :=
  Function.update_self ..

@[simp] theorem values_set_of_ne (isOther : other ≠ name) :
    (header.set name value).values other = header.values other :=
  Function.update_of_ne isOther ..

@[simp] theorem values_add_self :
    (header.add name value).values name = header.values name ++ [value] :=
  Function.update_self ..

@[simp] theorem values_add_of_ne (isOther : other ≠ name) :
    (header.add name value).values other = header.values other :=
  Function.update_of_ne isOther ..

@[simp] theorem values_del_self : (header.del name).values name = [] :=
  Function.update_self ..

@[simp] theorem values_del_of_ne (isOther : other ≠ name) :
    (header.del name).values other = header.values other :=
  Function.update_of_ne isOther ..

theorem values_merge (later : Header) :
    (header.merge later).values name =
      if later.values name = [] then header.values name else later.values name :=
  rfl

end Header

end Go
end Haste
