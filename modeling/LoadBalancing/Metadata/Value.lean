/-
Metadata values: what a host says about itself and what a request asks for.

Values are ordered by kind first (truth values, integers, texts, lists) and
within a kind by their natural order; texts compare by code point, which is the
order of their bytes, and lists compare item by item. The order is total and two
values compare as equal only when they are equal (`compare_eq_iff`), so equality
is decided through it.
-/

set_option autoImplicit false

namespace LoadBalancing

/-- A metadata value (`MetadataValue`). Integers are those of 64 signed bits; the readers refuse any
other. -/
inductive Value where
  | bool (b : Bool)
  | integer (n : Int)
  | text (s : String)
  | list (items : List Value)

namespace Value

/-- The place of a value's kind in the order. -/
def rank : Value → Nat
  | .bool _ => 0
  | .integer _ => 1
  | .text _ => 2
  | .list _ => 3

mutual

/-- The order of values: by kind, then within the kind. -/
def order : Value → Value → Ordering
  | .bool a, .bool b => compare a b
  | .integer a, .integer b => compare a b
  | .text a, .text b => compare a b
  | .list a, .list b => orderItems a b
  | a, b => compare a.rank b.rank

/-- Lists compare item by item; a list comes before its extensions. -/
def orderItems : List Value → List Value → Ordering
  | [], [] => .eq
  | [], _ :: _ => .lt
  | _ :: _, [] => .gt
  | a :: as, b :: bs => (order a b).then (orderItems as bs)

end

instance : Ord Value := ⟨order⟩

mutual

theorem order_eq_iff : ∀ a b : Value, order a b = .eq ↔ a = b
  | .bool a, .bool b => by simp [order]
  | .integer a, .integer b => by simp [order]
  | .text a, .text b => by simp [order]
  | .list a, .list b => by simp [order, orderItems_eq_iff a b]
  | .bool _, .integer _ | .bool _, .text _ | .bool _, .list _ => by simp [order, rank]
  | .integer _, .bool _ | .integer _, .text _ | .integer _, .list _ => by simp [order, rank]
  | .text _, .bool _ | .text _, .integer _ | .text _, .list _ => by simp [order, rank]
  | .list _, .bool _ | .list _, .integer _ | .list _, .text _ => by simp [order, rank]

theorem orderItems_eq_iff : ∀ a b : List Value, orderItems a b = .eq ↔ a = b
  | [], [] => by simp [orderItems]
  | [], _ :: _ => by simp [orderItems]
  | _ :: _, [] => by simp [orderItems]
  | a :: as, b :: bs => by
    simp [orderItems, Ordering.then_eq_eq, order_eq_iff a b, orderItems_eq_iff as bs]

end

/-- The order tells any two different values apart. -/
theorem compare_eq_iff {a b : Value} : compare a b = .eq ↔ a = b :=
  order_eq_iff a b

instance : DecidableEq Value := fun a b =>
  decidable_of_iff (compare a b = .eq) compare_eq_iff

/-- Whether a host that carries `offered` serves a request that asks for `wanted`
(`MetadataValue::matches`). With `listAsAny` a list on the host also serves each of its items. -/
def serves (offered wanted : Value) (listAsAny : Bool) : Bool :=
  decide (offered = wanted) ||
    match offered with
    | .list items => listAsAny && items.contains wanted
    | _ => false

mutual

/-- The text of a value: texts stand between quotes as they are, without escapes. -/
def describe : Value → String
  | .bool b => if b then "true" else "false"
  | .integer n => toString n
  | .text s => "\"" ++ s ++ "\""
  | .list items => "[" ++ ", ".intercalate (describeItems items) ++ "]"

/-- The texts of the items of a list. -/
def describeItems : List Value → List String
  | [] => []
  | v :: vs => describe v :: describeItems vs

end

end Value

end LoadBalancing
