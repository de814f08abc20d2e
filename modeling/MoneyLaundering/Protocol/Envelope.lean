import MoneyLaundering.Protocol.Protobuf
import Mathlib.Data.List.Perm.Subperm

/-!
# Envelopes and batches

Both protocols wrap a payload in an envelope: a few scalar fields, and one of a number of payload
messages (a `oneof`). A payload has scalar fields, or repeated `items`, or, in one case, a choice
among batches of items of its own. Touching any attribute of a payload selects it, also if the value
that is set is the default one.

A batch of objects is written by a loop over the names of some fields, and read by one over the same
names. For which tables of names this gives the objects back is `Coherent`, and that it does is
`readItems_addItems`.
-/

namespace Protobuf

variable {D : Type}

/-- The declaration of a payload. -/
structure BodyDescriptor where
  fields : Descriptor
  items : Descriptor
  results : List (String × Descriptor)
  deriving DecidableEq

structure Body (D : Type) where
  fields : Flat D
  items : List (Flat D)
  results : Option (String × List (Flat D))

/-- The declaration of an envelope: its own fields and the alternatives of its payload. -/
structure EnvelopeDescriptor where
  header : Descriptor
  payload : List (String × BodyDescriptor)

structure Envelope (D : Type) where
  header : Flat D
  payload : Option (String × Body D)

/-- A payload of scalar fields only. -/
def BodyDescriptor.scalars (fields : Descriptor) : BodyDescriptor := ⟨fields, [], []⟩

/-- A payload of repeated items only. -/
def BodyDescriptor.batch (items : Descriptor) : BodyDescriptor := ⟨[], items, []⟩

def BodyDescriptor.new [Zero D] (desc : BodyDescriptor) : Body D := ⟨desc.fields.new, [], none⟩

/-- `env.WhichOneof("payload")`. -/
def Envelope.whichOneof (env : Envelope D) : Option String := env.payload.map Prod.fst

namespace EnvelopeDescriptor

variable [Zero D] (E : EnvelopeDescriptor)

/-- `Envelope(**values)`. -/
def new (values : List (String × Scalar D)) : Option (Envelope D) :=
  (E.header.setattrs E.header.new values).map fun header ↦ ⟨header, none⟩

/-- `getattr(env, name)` of a payload: the selected one, or an empty one. -/
def body (env : Envelope D) (name : String) : Option (BodyDescriptor × Body D) :=
  (E.payload.lookup name).map fun desc ↦
    match env.payload with
    | some (selected, body) => if selected = name then (desc, body) else (desc, desc.new)
    | none => (desc, desc.new)

/-- The payload `name` is changed, and selected. -/
def modify (env : Envelope D) (name : String) (f : BodyDescriptor → Body D → Option (Body D)) :
    Option (Envelope D) :=
  (E.body env name).bind fun p ↦ (f p.1 p.2).map fun body ↦
    { env with payload := some (name, body) }

/-- Scalar fields of the payload `name` are set. -/
def setFields (env : Envelope D) (name : String) (values : List (String × Scalar D)) :
    Option (Envelope D) :=
  E.modify env name fun desc body ↦
    (desc.fields.setattrs body.fields values).map fun fields ↦ { body with fields }

/-- A scalar field of the payload `name` is read. -/
def getField (env : Envelope D) (name field : String) : Option (Scalar D) :=
  (E.body env name).bind fun p ↦ p.1.fields.getattr p.2.fields field

/-- `env.HasField` on the payload `name`. -/
def hasField (env : Envelope D) (name field : String) : Bool :=
  (E.body env name).any fun p ↦ Descriptor.hasField p.2.fields field

variable {E} {env env' : Envelope D} {name : String} {desc : BodyDescriptor}

/-- The payload of an envelope that has none yet. -/
theorem body_of_none (hpayload : env.payload = none) (hdesc : E.payload.lookup name = some desc) :
    E.body env name = some (desc, desc.new) := by
  rw [body, hdesc, Option.map_some, hpayload]

variable (env) in
theorem body_of_selected {body : Body D} (hpayload : env.payload = some (name, body))
    (hdesc : E.payload.lookup name = some desc) : E.body env name = some (desc, body) := by
  rw [EnvelopeDescriptor.body, hdesc, Option.map_some, hpayload]
  simp

/-- What a change of a payload makes of an envelope that has none yet. -/
theorem modify_of_none (hpayload : env.payload = none) (hdesc : E.payload.lookup name = some desc)
    {f : BodyDescriptor → Body D → Option (Body D)} {body : Body D}
    (hf : f desc desc.new = some body) :
    E.modify env name f = some { env with payload := some (name, body) } := by
  rw [modify, body_of_none hpayload hdesc, Option.bind_some, hf]
  rfl

/-- Only what is allowed can be set in a payload. -/
theorem allows_of_setFields {values : List (String × Scalar D)}
    (hset : E.setFields env name values = some env')
    (hdesc : E.payload.lookup name = some desc) : ∀ p ∈ values, desc.fields.Allows p.1 p.2 := by
  obtain ⟨p, hbody, hmap⟩ := Option.bind_eq_some_iff.mp hset
  obtain ⟨body, hfields, -⟩ := Option.map_eq_some_iff.mp hmap
  obtain ⟨fields, hset, -⟩ := Option.map_eq_some_iff.mp hfields
  have hp : p.1 = desc := by
    obtain ⟨desc', hdesc', rfl⟩ := Option.map_eq_some_iff.mp hbody
    obtain rfl := Option.some.inj (hdesc.symm.trans hdesc')
    match env.payload with
    | none => rfl
    | some (selected, _) =>
      change (if selected = name then _ else _ : BodyDescriptor × Body D).1 = _
      split <;> rfl
  exact hp ▸ Descriptor.allows_of_setattrs hset

/-- **Scalar fields that were set are read**, and the payload is selected. -/
theorem exists_setFields (hpayload : env.payload = none)
    (hdesc : E.payload.lookup name = some desc) (values : List (String × Scalar D))
    (hallows : ∀ p ∈ values, desc.fields.Allows p.1 p.2)
    (hnodup : (values.map Prod.fst).Nodup) :
    ∃ env', E.setFields env name values = some env' ∧ env'.header = env.header ∧
      env'.whichOneof = some name ∧ (∀ p ∈ values, E.getField env' name p.1 = some p.2) ∧
      ∀ field, E.hasField env' name field
        = (decide (field ∈ values.map Prod.fst) ||
          Descriptor.hasField (D := D) desc.fields.new field) := by
  obtain ⟨fields, hset, hvalues, hothers⟩ :=
    Descriptor.exists_setattrs hallows hnodup (desc.fields.new : Flat D)
  let body : Body D := ⟨fields, [], none⟩
  have hmodify : E.setFields env name values = some { env with payload := some (name, body) } := by
    refine modify_of_none hpayload hdesc ?_
    rw [BodyDescriptor.new, hset]
    rfl
  refine ⟨_, hmodify, rfl, rfl, fun p hp ↦ ?_, fun field ↦ ?_⟩
  · rw [getField, body_of_selected _ rfl hdesc]
    exact Descriptor.getattr_of_allows (hallows p hp) (hvalues p hp)
  · rw [hasField, body_of_selected _ rfl hdesc]
    change (fields field).isSome = _
    by_cases hfield : field ∈ values.map Prod.fst
    · obtain ⟨p, hp, rfl⟩ := List.mem_map.mp hfield
      rw [hvalues p hp, decide_eq_true hfield]
      rfl
    · rw [hothers field hfield, decide_eq_false hfield]
      rfl

end EnvelopeDescriptor

/-! ## Batches -/

/-- The items of a batch: each is added and its attributes are set. -/
def addItems [Zero D] (desc : Descriptor) (fields : List String) (batch : List (Record D)) :
    Option (List (Flat D)) :=
  batch.mapM fun elem ↦
    (fields.mapM fun field ↦ (Record.getattr elem field).map fun value ↦ (field, value)).bind
      fun values ↦ desc.setattrs desc.new values

/-- The objects of a batch. -/
def readItems [Zero D] (cls : RecordClass) (desc : Descriptor) (fields : List String)
    (items : List (Flat D)) : Option (List (Record D)) :=
  items.mapM fun item ↦
    (fields.mapM fun field ↦ (desc.getattr item field).map fun value ↦ (field, value)).bind
      fun kwargs ↦ Record.construct cls kwargs

/-- A table that names each field of a class once, and a declaration that has all of them. -/
structure Coherent (cls : RecordClass) (desc : Descriptor) (fields : List String) : Prop where
  nodup : cls.Nodup
  perm : fields.Perm cls
  declared : ∀ name ∈ cls, (desc.field? name).isSome = true

instance (cls : RecordClass) (desc : Descriptor) (fields : List String) :
    Decidable (Coherent cls desc fields) :=
  decidable_of_iff (cls.Nodup ∧ fields.Perm cls ∧ ∀ name ∈ cls, (desc.field? name).isSome = true)
    ⟨fun h ↦ ⟨h.1, h.2.1, h.2.2⟩, fun h ↦ ⟨h.nodup, h.perm, h.declared⟩⟩

/-- An object of the class whose values are in the ranges of the declared fields. -/
structure Instance (cls : RecordClass) (desc : Descriptor) (r : Record D) : Prop where
  names : r.map Prod.fst = cls
  fits : ∀ p ∈ r, ∀ field, desc.field? p.1 = some field → p.2.Fits field.type

instance (cls : RecordClass) (desc : Descriptor) (r : Record D) :
    Decidable (Instance cls desc r) :=
  decidable_of_iff
    (r.map Prod.fst = cls ∧ ∀ p ∈ r, ∀ field ∈ desc.field? p.1, p.2.Fits field.type)
    ⟨fun h ↦ ⟨h.1, h.2⟩, fun h ↦ ⟨h.names, h.fits⟩⟩

section

variable {cls : RecordClass} {desc : Descriptor} {fields : List String} {r : Record D}

theorem Coherent.allows (h : Coherent cls desc fields) (hr : Instance cls desc r) :
    ∀ p ∈ r, desc.Allows p.1 p.2 := by
  intro p hp
  obtain ⟨field, hfield⟩ := Option.isSome_iff_exists.mp
    (h.declared p.1 (hr.names ▸ List.mem_map_of_mem hp))
  exact ⟨field, hfield, hr.fits p hp field hfield⟩

/-- Some attributes of an object. -/
theorem exists_mapM_getattr (hnodup : (r.map Prod.fst).Nodup)
    (hfields : ∀ name ∈ fields, name ∈ r.map Prod.fst) :
    ∃ values : Record D, values.map Prod.fst = fields ∧ (∀ p ∈ values, p ∈ r) ∧
      (fields.mapM fun field ↦ (Record.getattr r field).map fun value ↦ (field, value))
        = some values := by
  induction fields with
  | nil => exact ⟨[], rfl, fun _ hp ↦ absurd hp List.not_mem_nil, rfl⟩
  | cons name fields ih =>
    obtain ⟨hhead, htail⟩ := List.forall_mem_cons.mp hfields
    obtain ⟨values, hnames, hmem, hvalues⟩ := ih htail
    obtain ⟨p, hp, rfl⟩ := List.mem_map.mp hhead
    refine ⟨p :: values, by rw [List.map_cons, hnames], List.forall_mem_cons.mpr ⟨hp, hmem⟩, ?_⟩
    rw [List.mapM_cons, Record.getattr, Record.lookup_of_mem hnodup hp, hvalues]
    rfl

/-- The attributes of an object in the order of a table. -/
theorem exists_values (h : Coherent cls desc fields) (hr : Instance cls desc r) :
    ∃ values : Record D, values.Perm r ∧ values.map Prod.fst = fields ∧
      (fields.mapM fun field ↦ (Record.getattr r field).map fun value ↦ (field, value))
        = some values := by
  have hnodup : (r.map Prod.fst).Nodup := hr.names ▸ h.nodup
  obtain ⟨values, hnames, hmem, hvalues⟩ := exists_mapM_getattr hnodup
    fun name hname ↦ hr.names ▸ h.perm.subset hname
  have hvaluesNodup : values.Nodup :=
    List.Nodup.of_map Prod.fst (hnames ▸ h.perm.nodup_iff.mpr h.nodup)
  have hlength : r.length ≤ values.length := by
    have hle := Nat.le_of_eq h.perm.length_eq.symm
    rwa [← hnames, ← hr.names, List.length_map, List.length_map] at hle
  exact ⟨values, (List.subperm_of_subset hvaluesNodup hmem).perm_of_length_le hlength, hnames,
    hvalues⟩

/-- Reading the attributes that a table names. -/
theorem mapM_getattr [Zero D] {item : Flat D} {values : Record D}
    (hvalues : ∀ p ∈ values, desc.getattr item p.1 = some p.2) :
    ((values.map Prod.fst).mapM fun field ↦
      (desc.getattr item field).map fun value ↦ (field, value)) = some values := by
  induction values with
  | nil => rfl
  | cons p values ih =>
    obtain ⟨hhead, htail⟩ := List.forall_mem_cons.mp hvalues
    rw [List.map_cons, List.mapM_cons, hhead, ih htail]
    rfl

/-- **The objects of a batch are read back.** -/
theorem readItems_addItems [Zero D] (h : Coherent cls desc fields) {batch : List (Record D)}
    (hbatch : ∀ r ∈ batch, Instance cls desc r) :
    ∃ items, addItems desc fields batch = some items ∧
      readItems cls desc fields items = some batch := by
  induction batch with
  | nil => exact ⟨[], rfl, rfl⟩
  | cons r batch ih =>
    obtain ⟨hr, hbatch⟩ := List.forall_mem_cons.mp hbatch
    obtain ⟨items, hadd, hread⟩ := ih hbatch
    obtain ⟨values, hperm, hnames, hvalues⟩ := exists_values h hr
    have hallows : ∀ p ∈ values, desc.Allows p.1 p.2 := fun p hp ↦
      h.allows hr p (hperm.subset hp)
    have hnodup : (values.map Prod.fst).Nodup := hnames ▸ h.perm.nodup_iff.mpr h.nodup
    obtain ⟨item, hset, -, -⟩ := Descriptor.exists_setattrs hallows hnodup (desc.new : Flat D)
    refine ⟨item :: items, ?_, ?_⟩
    · rw [addItems] at hadd ⊢
      rw [List.mapM_cons, hvalues, hadd, Option.bind_some, hset]
      rfl
    · have hgetattr := mapM_getattr (Descriptor.getattr_of_setattrs hallows hnodup hset)
      have hconstruct : Record.construct cls values = some r :=
        hr.names ▸ Record.construct_of_perm (hr.names ▸ h.nodup) hperm
      rw [readItems] at hread ⊢
      rw [List.mapM_cons, hread, ← hnames, hgetattr, Option.bind_some, hconstruct]
      rfl

end

end Protobuf
