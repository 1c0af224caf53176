import CodeAtlas.Json.Reader

/-!
# Decoding JSON

A decoder reads a value of a known type out of a draft, in the order of the text, and stops at the
first error. A record is an object with its fields in any order and other keys passed over, or an
array of its fields in their order. A draft comes straight from a text, or it was a value before;
the two differ in some errors, and only a text has a limit on nesting.
-/

namespace CodeAtlas.Json

/-- What was found in place of something else. -/
inductive Found where
  | null
  | bool (value : Bool)
  | number (value : Number)
  | string (value : String)
  | sequence
  | map

namespace Found

def text : Found → String
  | null => "null"
  | bool value => s!"boolean `{value}`"
  | number (.whole value) => s!"integer `{value}`"
  | number (.real value) => s!"floating point `{(Number.real value).text}`"
  | string value => s!"string {Text.quoted value}"
  | sequence => "sequence"
  | map => "map"

end Found

inductive Error where
  | malformed (error : SyntaxError)
  | wrongType (found : Found) (expected : String)
  | wrongValue (found : Found) (expected : String)
  | wrongLength (length : Nat) (expected : String)
  | unknownVariant (name : String) (expected : List String)
  | missingField (name : String)
  | duplicateField (name : String)
  /-- No shape of a type with several shapes fits. -/
  | noShape (name : String)

namespace Error

def choices : List String → String
  | [] => "there are no variants"
  | [one] => s!"expected `{one}`"
  | [one, other] => s!"expected `{one}` or `{other}`"
  | names => "expected one of " ++ ", ".intercalate (names.map fun name => s!"`{name}`")

def message : Error → String
  | malformed error => error.message
  | wrongType found expected => s!"invalid type: {found.text}, expected {expected}"
  | wrongValue found expected => s!"invalid value: {found.text}, expected {expected}"
  | wrongLength length expected => s!"invalid length {length}, expected {expected}"
  | unknownVariant name expected => s!"unknown variant `{name}`, {choices expected}"
  | missingField name => s!"missing field `{name}`"
  | duplicateField name => s!"duplicate field `{name}`"
  | noShape name => s!"data did not match any variant of untagged enum {name}"

end Error

/-- Where a draft comes from, with the nesting that is still allowed. -/
inductive Origin where
  | text (depth : Nat)
  | value

namespace Origin

def enter : Origin → Except Error Origin
  | .text depth => if depth ≤ 1 then .error (.malformed .tooDeep) else .ok (.text (depth - 1))
  | .value => .ok .value

def isText : Origin → Bool
  | .text _ => true
  | .value => false

end Origin

abbrev Decoder (α : Type) := Origin → Draft → Except Error α

namespace Decoder

/-- What a draft is, for one who expected something else. -/
def found : Draft → Except Error Found
  | .null => .ok .null
  | .bool value => .ok (.bool value)
  | .number (.ok value) => .ok (.number value)
  | .number (.error error) => .error (.malformed error)
  | .string (.ok value) => .ok (.string value)
  | .string (.error error) => .error (.malformed error)
  | .array _ _ => .ok .sequence
  | .object _ _ => .ok .map
  | .broken fault => .error (.malformed fault.reading)

/-- The error of a draft that is not of the type expected. -/
def mismatch {α : Type} (expected : String) (draft : Draft) : Except Error α := do
  throw (.wrongType (← found draft) expected)

def string (expected : String := "a string") : Decoder String
  | _, .string (.ok value) => .ok value
  | _, draft => mismatch expected draft

def natural (expected : String) (limit : Nat) : Decoder Nat
  | _, .number (.ok (.whole value)) =>
      if 0 ≤ value && value ≤ limit then .ok value.toNat
      else .error (.wrongValue (.number (.whole value)) expected)
  | _, draft => mismatch expected draft

def word32 : Decoder UInt32 := fun origin draft => do
  return UInt32.ofNat (← natural "u32" (Nat.pow 2 32 - 1) origin draft)

def word64 : Decoder Nat := natural "u64" (Nat.pow 2 64 - 1)

def size : Decoder Nat := natural "usize" (Nat.pow 2 64 - 1)

def realOf (value : Int) : Float :=
  if 0 ≤ value then (UInt64.ofNat value.toNat).toFloat
  else -(UInt64.ofNat value.natAbs).toFloat

def real : Decoder Float
  | _, .number (.ok (.real value)) => .ok value
  | _, .number (.ok (.whole value)) => .ok (realOf value)
  | _, draft => mismatch "f64" draft

def optional {α : Type} (decoder : Decoder α) : Decoder (Option α)
  | _, .null => .ok none
  | origin, draft => do return some (← decoder origin draft)

def faultOf (fault : Option Fault) : Except Error Unit :=
  match fault with
  | none => .ok ()
  | some fault => .error (.malformed fault.reading)

def listItems {α : Type} (decoder : Decoder α) (origin : Origin) :
    List α → List Draft → Except Error (List α)
  | read, [] => .ok read.reverse
  | read, item :: rest =>
      match decoder origin item with
      | .error error => .error error
      | .ok value => listItems decoder origin (value :: read) rest

def list {α : Type} (decoder : Decoder α) : Decoder (List α)
  | origin, .array items fault => do
      let values ← listItems decoder (← origin.enter) [] items
      faultOf fault
      return values
  | _, draft => mismatch "a sequence" draft

def keyOf (key : DraftString) : Except Error String :=
  match key with
  | .ok key => .ok key
  | .error error => .error (.malformed error)

def mapEntries {α : Type} (decoder : Decoder α) (origin : Origin) :
    List (String × α) → List (DraftString × Draft) → Except Error (List (String × α))
  | read, [] => .ok read.reverse
  | read, (key, item) :: rest =>
      match keyOf key with
      | .error error => .error error
      | .ok key =>
          match decoder origin item with
          | .error error => .error error
          | .ok value => mapEntries decoder origin ((key, value) :: read) rest

/-- The entries of an object, in their order. -/
def map {α : Type} (decoder : Decoder α) : Decoder (List (String × α))
  | origin, .object entries fault => do
      let values ← mapEntries decoder (← origin.enter) [] entries
      faultOf fault
      return values
  | _, draft => mismatch "a map" draft

def variantOf {α : Type} (names : List (String × α)) (name : String) : Except Error α :=
  match names.lookup name with
  | some value => .ok value
  | none => .error (.unknownVariant name (names.map Prod.fst))

/-- A null, as the content of a constant. -/
def unit : Decoder Unit
  | _, .null => .ok ()
  | _, draft => mismatch "unit" draft

/-- A constant by its name, or as the only key of an object. -/
def variant {α : Type} (names : List (String × α)) : Decoder α
  | _, .string (.ok name) => variantOf names name
  | .text depth, .object entries fault => do
      let inner ← (Origin.text depth).enter
      match entries with
      | [] =>
          faultOf fault
          throw (.malformed .expectedValue)
      | (key, content) :: rest =>
          let value ← variantOf names (← keyOf key)
          unit inner content
          if rest.isEmpty then
            faultOf fault
            return value
          else throw (.malformed .expectedValue)
  | .value, .object entries _ =>
      match entries with
      | [(key, content)] => do
          let value ← variantOf names (← keyOf key)
          unit .value content
          return value
      | _ => .error (.wrongValue .map "map with a single key")
  | .text _, draft => do
      match ← found draft with
      | .string name => variantOf names name
      | _ => throw (.malformed .expectedValue)
  | .value, draft => mismatch "string or map" draft

end Decoder

/-! ## Records -/

/-- A field of a record that is read into a state. -/
structure Field (σ : Type) where
  /-- The names it goes by; the first is used in messages. -/
  names : List String
  /-- It may be missing where the record is an array. -/
  hasDefault : Bool
  isSet : σ → Bool
  read : Origin → Draft → σ → Except Error σ

namespace Field

def make {σ α : Type} (names : List String) (hasDefault : Bool) (decoder : Decoder α)
    (get : σ → Option α) (set : σ → α → σ) : Field σ where
  names
  hasDefault
  isSet state := (get state).isSome
  read origin draft state := do return set state (← decoder origin draft)

def name {σ : Type} (field : Field σ) : String := field.names.headD ""

end Field

namespace Decoder

/-- The value of a field that has to be there. -/
def need {α : Type} (name : String) : Option α → Except Error α
  | some value => .ok value
  | none => .error (.missingField name)

def recordEntries {σ : Type} (fields : List (Field σ)) (origin : Origin) :
    σ → List (DraftString × Draft) → Except Error σ
  | state, [] => .ok state
  | state, (key, item) :: rest =>
      match keyOf key with
      | .error error => .error error
      | .ok key =>
          match fields.find? fun field => field.names.contains key with
          | none =>
              match item.skipFault with
              | some error => .error (.malformed error)
              | none => recordEntries fields origin state rest
          | some field =>
              if field.isSet state then .error (.duplicateField field.name)
              else
                match field.read origin item state with
                | .error error => .error error
                | .ok state => recordEntries fields origin state rest

/-- Reads fields from items in order. The state and the items left over are given. -/
def recordItems {σ : Type} (expected : String) (origin : Origin) (fault : Option Fault) :
    Nat → σ → List (Field σ) → List Draft → Except Error (σ × List Draft)
  | _, state, [], items => .ok (state, items)
  | index, state, field :: fields, [] => do
      faultOf fault
      if field.hasDefault then recordItems expected origin fault index state fields []
      else throw (.wrongLength index expected)
  | index, state, field :: fields, item :: items =>
      match field.read origin item state with
      | .error error => .error error
      | .ok state => recordItems expected origin fault (index + 1) state fields items

/-- A record, given its name, its fields and how they make it up. Strict records are objects only.
-/
def record {σ α : Type} (name : String) (fields : List (Field σ)) (empty : σ)
    (finish : σ → Except Error α) : Decoder α
  | origin, .object entries fault => do
      let state ← recordEntries fields (← origin.enter) empty entries
      faultOf fault
      finish state
  | origin, .array items fault => do
      let expected := s!"struct {name} with {fields.length} elements"
      let (state, rest) ← recordItems expected (← origin.enter) fault 0 empty fields items
      if !rest.isEmpty then
        if origin.isText then throw (.malformed .trailingCharacters)
        else throw (.wrongLength items.length "fewer elements in array")
      match fault with
      | none => finish state
      | some ⟨.endInList, _⟩ => throw (.malformed .endInList)
      | some ⟨.trailingComma, _⟩ => throw (.malformed .trailingComma)
      | some _ => throw (.malformed .trailingCharacters)
  | _, draft => mismatch s!"struct {name}" draft

end Decoder

/-- Decodes a text of which nothing else is read before. -/
def Decoder.ofText {α : Type} (decoder : Decoder α) (document : Document) : Except Error α := do
  let value ← decoder (.text Document.depthLimit) document.root
  if document.trailing then throw (.malformed .trailingCharacters)
  return value

end CodeAtlas.Json
