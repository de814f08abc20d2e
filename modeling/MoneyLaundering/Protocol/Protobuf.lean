import Mathlib

/-!
# Messages with declared fields

What Python sees of a protobuf message: attributes that can be set and read by name, as its
declaration (proto3) allows. Setting an unknown attribute, a value of the wrong type or a number out
of range raises, reading an attribute that was not set gives the default of its type, and only an
`optional` field tells whether it was set. Raising is `none`.

Doubles are of an arbitrary type `D` with a zero. The bytes of a message are not modelled here: that
parsing gives back what was serialised is `Codec.Lossless`.

The main rule is about a loop that sets some fields of a new message and one that reads them:
`getattr_of_setattrs`.
-/

namespace Protobuf

inductive FieldType
  | string
  | double
  | int32
  | uint32
  | uint64
  | bool
  deriving DecidableEq, Repr

/-- A Python value that a field can hold. -/
inductive Scalar (D : Type)
  | string (value : String)
  | double (value : D)
  | int (value : ℤ)
  | bool (value : Bool)
  deriving DecidableEq, Repr

namespace Scalar

variable {D : Type}

/-- The value may be assigned to a field of this type. -/
def Fits : FieldType → Scalar D → Prop
  | .string, string _ => True
  | .double, double _ => True
  | .int32, int n => -2 ^ 31 ≤ n ∧ n < 2 ^ 31
  | .uint32, int n => 0 ≤ n ∧ n < 2 ^ 32
  | .uint64, int n => 0 ≤ n ∧ n < 2 ^ 64
  | .bool, bool _ => True
  | _, _ => False

instance : (type : FieldType) → DecidablePred (Fits (D := D) type)
  | type, value => by
    unfold Fits
    split <;> infer_instance

/-- What an unset field of this type reads as. -/
def default [Zero D] : FieldType → Scalar D
  | .string => string ""
  | .double => double 0
  | .int32 | .uint32 | .uint64 => int 0
  | .bool => bool false

/-- The value of a string. -/
def toString? : Scalar D → Option String
  | string value => some value
  | double _ | int _ | bool _ => none

def toDouble? : Scalar D → Option D
  | double value => some value
  | string _ | int _ | bool _ => none

def toInt? : Scalar D → Option ℤ
  | int value => some value
  | string _ | double _ | bool _ => none

end Scalar

structure Field where
  name : String
  type : FieldType
  optional : Bool
  deriving DecidableEq, Repr

/-- A field that does not tell whether it was set. -/
def plain (name : String) (type : FieldType) : Field := ⟨name, type, false⟩

/-- The declaration of a message with scalar fields. -/
abbrev Descriptor := List Field

/-- A message with scalar fields. A field that does not tell whether it was set always has a
value. -/
abbrev Flat (D : Type) := String → Option (Scalar D)

namespace Descriptor

variable {D : Type} (desc : Descriptor)

def field? (name : String) : Option Field := desc.find? (·.name = name)

/-- A new message. -/
def new [Zero D] : Flat D := fun name ↦
  (desc.field? name).bind fun field ↦
    if field.optional then none else some (Scalar.default field.type)

/-- `setattr(message, name, value)`. -/
def setattr (message : Flat D) (name : String) (value : Scalar D) : Option (Flat D) :=
  (desc.field? name).bind fun field ↦
    if value.Fits field.type then some (Function.update message name (some value)) else none

/-- `getattr(message, name)`. -/
def getattr [Zero D] (message : Flat D) (name : String) : Option (Scalar D) :=
  (desc.field? name).map fun field ↦ (message name).getD (Scalar.default field.type)

/-- `message.HasField(name)`. -/
def hasField (message : Flat D) (name : String) : Bool := (message name).isSome

/-- Some attributes are set, one after the other. -/
def setattrs (message : Flat D) (values : List (String × Scalar D)) : Option (Flat D) :=
  values.foldlM (fun message value ↦ desc.setattr message value.1 value.2) message

/-- The declaration has a field of this name for this value. -/
def Allows (name : String) (value : Scalar D) : Prop :=
  ∃ field, desc.field? name = some field ∧ value.Fits field.type

variable {desc} {message : Flat D} {name : String} {value : Scalar D}

theorem setattr_of_allows (h : desc.Allows name value) :
    desc.setattr message name value = some (Function.update message name (some value)) := by
  obtain ⟨field, hfield, hfits⟩ := h
  rw [setattr, hfield, Option.bind_some, if_pos hfits]

theorem getattr_of_allows [Zero D] (h : desc.Allows name value)
    (hvalue : message name = some value) : desc.getattr message name = some value := by
  obtain ⟨field, hfield, -⟩ := h
  rw [getattr, hfield, hvalue]
  rfl

/-- Setting fields of distinct names sets each of them, and no other. -/
theorem exists_setattrs {values : List (String × Scalar D)}
    (hallows : ∀ p ∈ values, desc.Allows p.1 p.2) (hnodup : (values.map Prod.fst).Nodup)
    (message : Flat D) :
    ∃ message', desc.setattrs message values = some message' ∧
      (∀ p ∈ values, message' p.1 = some p.2) ∧
      ∀ name ∉ values.map Prod.fst, message' name = message name := by
  induction values generalizing message with
  | nil => exact ⟨message, rfl, fun _ hp ↦ absurd hp List.not_mem_nil, fun _ _ ↦ rfl⟩
  | cons p values ih =>
    obtain ⟨hhead, htail⟩ := List.forall_mem_cons.mp hallows
    obtain ⟨hnotMem, hnodup⟩ := List.nodup_cons.mp hnodup
    obtain ⟨message', hset, hvalues, hothers⟩ :=
      ih htail hnodup (Function.update message p.1 (some p.2))
    refine ⟨message', ?_, List.forall_mem_cons.mpr ⟨?_, hvalues⟩, fun name hname ↦ ?_⟩
    · rw [setattrs, List.foldlM_cons, setattr_of_allows hhead]
      exact hset
    · rw [hothers p.1 hnotMem, Function.update_self]
    · obtain ⟨hne, hname⟩ := List.ne_and_not_mem_of_not_mem_cons hname
      rw [hothers name hname, Function.update_of_ne hne]

/-- Only what is allowed can be set. -/
theorem allows_of_setattrs {values : List (String × Scalar D)} {message message' : Flat D}
    (hset : desc.setattrs message values = some message') :
    ∀ p ∈ values, desc.Allows p.1 p.2 := by
  induction values generalizing message with
  | nil => exact List.forall_mem_nil _
  | cons p values ih =>
    rw [setattrs, List.foldlM_cons] at hset
    obtain ⟨message₁, hhead, htail⟩ := Option.bind_eq_some_iff.mp hset
    refine List.forall_mem_cons.mpr ⟨?_, ih htail⟩
    obtain ⟨field, hfield, hif⟩ := Option.bind_eq_some_iff.mp hhead
    exact ⟨field, hfield, Option.isSome_ite.mp (Option.isSome_of_eq_some hif)⟩

/-- **What was set is read.** -/
theorem getattr_of_setattrs [Zero D] {values : List (String × Scalar D)}
    (hallows : ∀ p ∈ values, desc.Allows p.1 p.2) (hnodup : (values.map Prod.fst).Nodup)
    {message message' : Flat D} (hset : desc.setattrs message values = some message') :
    ∀ p ∈ values, desc.getattr message' p.1 = some p.2 := by
  obtain ⟨message'', hset', hvalues, -⟩ := exists_setattrs hallows hnodup message
  obtain rfl := Option.some.inj (hset.symm.trans hset')
  exact fun p hp ↦ getattr_of_allows (hallows p hp) (hvalues p hp)

end Descriptor

/-- `SerializeToString` and `ParseFromString` of a message type. -/
structure Codec (M Data : Type) where
  serializeToString : M → Data
  /-- Nothing when it raises. -/
  parseFromString : Data → Option M

/-- What was serialised is parsed. -/
def Codec.Lossless {M Data : Type} (codec : Codec M Data) (message : M) : Prop :=
  codec.parseFromString (codec.serializeToString message) = some message

/-! ## Records -/

/-- A dataclass, by the names of its fields. -/
abbrev RecordClass := List String

/-- An object with scalar attributes, in the order of its class. -/
abbrev Record (D : Type) := List (String × Scalar D)

namespace Record

variable {D : Type}

def getattr (r : Record D) (name : String) : Option (Scalar D) := r.lookup name

/-- `cls(**kwargs)`, which raises if an argument is missing or one is not expected. -/
def construct (cls : RecordClass) (kwargs : List (String × Scalar D)) : Option (Record D) :=
  if ∀ p ∈ kwargs, p.1 ∈ cls then
    cls.mapM fun name ↦ (kwargs.lookup name).map fun value ↦ (name, value)
  else none

theorem lookup_of_mem {r : Record D} (hnodup : (r.map Prod.fst).Nodup) {p : String × Scalar D}
    (hp : p ∈ r) : r.lookup p.1 = some p.2 := by
  induction r with
  | nil => exact absurd hp List.not_mem_nil
  | cons q r ih =>
    obtain ⟨hnotMem, hnodup⟩ := List.nodup_cons.mp hnodup
    rcases List.mem_cons.mp hp with rfl | hp
    · rw [List.lookup, beq_self_eq_true]
    · have hne : p.1 ≠ q.1 := fun heq ↦ hnotMem (heq ▸ List.mem_map_of_mem hp)
      rw [List.lookup, beq_false_of_ne hne]
      exact ih hnodup hp

/-- **An object is made again of its attributes**, in whatever order they are given. -/
theorem construct_of_perm {r kwargs : Record D} (hnodup : (r.map Prod.fst).Nodup)
    (hperm : kwargs.Perm r) : construct (r.map Prod.fst) kwargs = some r := by
  have hkwargs : (kwargs.map Prod.fst).Nodup := (hperm.map Prod.fst).nodup_iff.mpr hnodup
  have hnames : ∀ p ∈ kwargs, p.1 ∈ r.map Prod.fst := fun p hp ↦
    List.mem_map_of_mem (hperm.subset hp)
  rw [construct, if_pos hnames]
  have hlookup : ∀ p ∈ r, kwargs.lookup p.1 = some p.2 := fun p hp ↦
    lookup_of_mem hkwargs (hperm.symm.subset hp)
  clear hnodup hperm hkwargs hnames
  induction r with
  | nil => rfl
  | cons p r ih =>
    obtain ⟨hhead, htail⟩ := List.forall_mem_cons.mp hlookup
    rw [List.map_cons, List.mapM_cons, hhead, ih htail]
    rfl

end Record

end Protobuf
