/-!
# JSON values

The dynamic values of the JSON data format, as the track's metadata, the box patches and the
property sheets use them.

Numbers keep the class the reader gave them: an unsigned 64-bit integer, a negative integer
that fits in 64 bits, or a float. Objects hold their members with strictly increasing keys, so
a value has one written form; `Object.insert` keeps that order and lets the last write to a key
win.
-/

namespace RegionTrack.Json

/-- A JSON number, classified the way the reader produced it. -/
inductive Number where
  /-- An integer in `[0, 2^64)`. -/
  | unsigned (n : Nat)
  /-- A negative integer in `[-2^63, 0)`. -/
  | negative (n : Int)
  /-- Any other number. -/
  | float (x : Float)

/-- A JSON value. -/
inductive Value where
  | null
  | bool (b : Bool)
  | number (n : Number)
  | string (s : String)
  | array (items : List Value)
  /-- Members with strictly increasing keys. -/
  | object (members : List (String × Value))

instance : Inhabited Value := ⟨.null⟩

/-- The float a number stands for, rounding integers to the nearest float. -/
def Number.toFloat : Number → Float
  | .unsigned n => Float.ofNat n
  | .negative n => Float.ofInt n
  | .float x => x

/-- A float as a JSON value: a number when finite, and null otherwise, since JSON has no
number for NaN or the infinities. -/
def Value.ofFloat (x : Float) : Value := if x.isFinite then .number (.float x) else .null

/-- A natural as a JSON number. -/
def Value.ofNat (n : Nat) : Value := .number (.unsigned n)

namespace Object

/-- Sets `key` to `v` in members sorted by key, replacing an earlier value of the key. -/
def insert (key : String) (v : Value) : List (String × Value) → List (String × Value)
  | [] => [(key, v)]
  | (k, w) :: rest =>
    if key < k then (key, v) :: (k, w) :: rest
    else if key = k then (key, v) :: rest
    else (k, w) :: insert key v rest

/-- Builds sorted members from pairs in any order; of two pairs with one key the later wins. -/
def ofList (pairs : List (String × Value)) : List (String × Value) :=
  pairs.foldl (fun acc kv => insert kv.1 kv.2 acc) []

end Object

/-- An object value built from pairs in any order. -/
def Value.obj (pairs : List (String × Value)) : Value :=
  .object (Object.ofList pairs)

/-- The member `key` of an object, if the value is an object that has it. -/
def Value.field? (v : Value) (key : String) : Option Value :=
  match v with
  | .object members => members.lookup key
  | _ => none

end RegionTrack.Json
