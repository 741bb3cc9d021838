import StackMachine.Proofs.GeneratedCode
import StackMachine.Proofs.Streams

/-!
What the generated code of a record does. Its tokens say which fields are written and in which order
fields are read, and that gives a binary form for the records of the declared fields, whatever the
types of the fields are.

Main statement: the binary form is exact if the binary forms of the fields are. Every other item is
rejected.
-/

namespace StackMachine.Derive

open Codec

/-! ## 1. Types of fields -/

/-- A type that a field may have: values with a binary form. All that a writer can do with a sink is
to write to it, so that it cannot tell one sink from another. -/
structure FieldType where
  Value : Type
  wire : Wire Value
  natural : ∀ {σ τ : Type} {source : Sink σ} {target : Sink τ} {f : σ → τ}, source.Maps target f →
    ∀ (v : Value) (out : σ), f (wire.encode source v out) = wire.encode target v (f out)

namespace FieldType

instance (t : FieldType) : Wire t.Value := t.wire

/-- Reading takes the binary form of a value off the front of any input and gives the value back. -/
def RoundTrips (t : FieldType) : Prop :=
  ∀ (v : t.Value) (rest : Bytes), Wire.decode (bytes v ++ rest) = .ok v rest

def ofKind (kind : Kind) : FieldType :=
  ⟨kind.Value, kind.wire, fun hmaps v out => encode_natural hmaps kind v out⟩

theorem roundTrips_ofKind (kind : Kind) : (ofKind kind).RoundTrips := kind.exact.decode_bytes

theorem maps_append (out : Array UInt8) : Sink.Maps Sink.buffer Sink.buffer (out ++ ·) := by
  intro bytes more
  show out ++ (more ++ bytes) = out ++ more ++ bytes
  apply Array.toList_inj.1
  rw [Array.toList_append, Array.toList_appendList, Array.toList_appendList, Array.toList_append,
    List.append_assoc]

/-- A writer adds the binary form to what the buffer holds. -/
theorem toList_encode (t : FieldType) (v : t.Value) (out : Array UInt8) :
    (Wire.encode Sink.buffer v out).toList = out.toList ++ bytes v := by
  have hout := t.natural (maps_append out) v #[]
  rw [Array.append_empty] at hout
  show (t.wire.encode Sink.buffer v out).toList = _
  rw [← hout, Array.toList_append]
  rfl

theorem byteCount_eq (t : FieldType) (v : t.Value) : byteCount v = (bytes v).length :=
  (t.natural Sink.maps_size v #[]).symm

end FieldType

/-! ## 2. Records -/

/-- A field of a declaration. -/
abbrev Declared (declared : List String) := { name : String // name ∈ declared }

/-- A value for every declared field. -/
abbrev Record (types : String → FieldType) (declared : List String) :=
  (field : Declared declared) → (types field.val).Value

section

variable {types : String → FieldType} {declared : List String}

/-- Writes fields of a record, in the given order. -/
def writeFields {σ : Type} (sink : Sink σ) (r : Record types declared)
    (fields : List (Declared declared)) (out : σ) : σ :=
  fields.foldl (fun out field => Wire.encode sink (r field) out) out

/-- Reads a value for each name, in the given order. -/
def readFields (types : String → FieldType) :
    (names : List String) → Reader ((name : String) → name ∈ names → (types name).Value)
  | [] => pure fun _ h => absurd h List.not_mem_nil
  | first :: names => do
    let v ← (Wire.decode : Reader (types first).Value)
    let values ← readFields types names
    return fun name h =>
      if hfirst : name = first then hfirst ▸ v
      else values name ((List.mem_cons.1 h).resolve_left hfirst)

/-- The binary form that a code defines for the records of a declaration. Only declared fields may
be written or initialised, and every declared field needs an initialiser. -/
def RecordCode.wire? (code : RecordCode) (types : String → FieldType) (declared : List String) :
    Option (Wire (Record types declared)) :=
  if h : (∀ name ∈ code.written, name ∈ declared) ∧ (∀ name ∈ code.initialised, name ∈ declared) ∧
      ∀ name ∈ declared, name ∈ code.initialised then
    some {
      encode := fun sink r out => writeFields sink r (code.written.pmap Subtype.mk h.1) out
      decode := do
        let values ← readFields types code.initialised
        return fun field => values field.val (h.2.2 field.val field.property) }
  else none

theorem toList_writeFields (r : Record types declared) (fields : List (Declared declared))
    (out : Array UInt8) :
    (writeFields Sink.buffer r fields out).toList =
      out.toList ++ fields.flatMap fun field => bytes (r field) := by
  induction fields generalizing out with
  | nil => exact (List.append_nil _).symm
  | cons field fields ih =>
    show (writeFields Sink.buffer r fields (Wire.encode Sink.buffer (r field) out)).toList = _
    rw [ih, FieldType.toList_encode, List.append_assoc, List.flatMap_cons]

theorem writeFields_natural {σ τ : Type} {source : Sink σ} {target : Sink τ} {f : σ → τ}
    (hmaps : source.Maps target f) (r : Record types declared) (fields : List (Declared declared))
    (out : σ) :
    f (writeFields source r fields out) = writeFields target r fields (f out) :=
  (List.foldl_hom f fun out field => ((types field.val).natural hmaps (r field) out).symm).symm

/-- Reading undoes writing, name by name. -/
theorem readFields_flatMap (r : Record types declared)
    (hlawful : ∀ name ∈ declared, (types name).RoundTrips) (names : List String)
    (h : ∀ name ∈ names, name ∈ declared) (rest : Bytes) :
    readFields types names ((names.pmap Subtype.mk h).flatMap
      (fun field => bytes (r field)) ++ rest) =
      .ok (fun name hname => r ⟨name, h name hname⟩) rest := by
  induction names with
  | nil =>
    show EStateM.Result.ok _ rest = _
    congr 1
    funext name hname
    exact absurd hname List.not_mem_nil
  | cons first names ih =>
    have hfirst : first ∈ declared := h first List.mem_cons_self
    -- the value of the first name is read off its own bytes and leaves the bytes of the others
    have hrest := ih fun name hname => h name (List.mem_cons_of_mem first hname)
    rw [List.pmap_cons, List.flatMap_cons, List.append_assoc]
    show EStateM.bind (Wire.decode : Reader (types first).Value)
        (fun v => EStateM.bind (readFields types names) fun values =>
      EStateM.pure _) _ = _
    simp only [EStateM.bind, hlawful first hfirst (r ⟨first, hfirst⟩) _, hrest, EStateM.pure]
    congr 1
    -- a name that occurs again gets the same value again
    funext name hname
    split
    · rename_i heq
      subst heq
      rfl
    · rfl

/-! ## 3. Derived records -/

/-- Code that writes and initialises the declared fields, each once and in order, defines a binary
form. -/
theorem exists_wire (types : String → FieldType) (sink : String) (names : List String) :
    ∃ wire : Wire (Record types names), RecordCode.wire? ⟨sink, names, names⟩
      types names = some wire ∧
      (∀ {σ : Type} (sink : Sink σ) (r : Record types names) (out : σ),
        Wire.encode sink r out = writeFields sink r names.attach out) ∧
      ∀ (r : Record types names) (input rest : Bytes),
        readFields types names input = .ok (fun name h => r ⟨name, h⟩) rest →
        Wire.decode input = .ok r rest := by
  have hall (name : String) (h : name ∈ names) : name ∈ names := h
  refine ⟨_, dif_pos ⟨hall, hall, hall⟩, ?_, ?_⟩
  · intros
    rfl
  · intro r input rest h
    show EStateM.bind (readFields types names) (fun values => EStateM.pure _) input = _
    rw [EStateM.bind, h]
    rfl

theorem bytes_eq [Wire (Record types declared)] {r : Record types declared}
    {fields : List (Declared declared)}
    (hencode :
      ∀ {σ : Type} (sink : Sink σ) (out : σ), Wire.encode sink r out =
        writeFields sink r fields out) :
    bytes r = fields.flatMap fun field => bytes (r field) := by
  rw [bytes, hencode, toList_writeFields]
  rfl

theorem byteCount_eq_sum [Wire (Record types declared)] {r : Record types declared}
    {fields : List (Declared declared)}
    (hencode :
      ∀ {σ : Type} (sink : Sink σ) (out : σ), Wire.encode sink r out =
        writeFields sink r fields out) :
    byteCount r = (bytes r).length ∧
    (bytes r).length = (fields.map fun field => byteCount (r field)).sum := by
  constructor
  · rw [byteCount, bytes, hencode, hencode]
    exact (writeFields_natural Sink.maps_size r fields #[]).symm
  · rw [bytes_eq hencode, List.length_flatMap]
    simp only [FieldType.byteCount_eq]

end

theorem impl_not_mem_code (r : Rejection) : "impl" ∉ r.code := by
  have hhead : (Text.quote r.message).toList.head? = some '"' := by
    rw [Text.quote, String.toList_ofList]
    rfl
  have hquote : "impl" ≠ Text.quote r.message := by
    intro h
    rw [← h] at hhead
    exact absurd hhead (by decide)
  have hcode : r.code = [":", ":", "core", ":", ":", "compile_error", "!", "\x7b",
      Text.quote r.message, "\x7d"] := by
    rfl
  simp [hcode, hquote]

section

variable {item : Item} {names : List String}

theorem deriveRecord_of_named (h : item.body = .struct (.named names)) :
    deriveRecord item = .ok ⟨item.header, names, names⟩ := by
  rw [deriveRecord, h]

theorem recordCode_of_named (h : item.body = .struct (.named names)) :
    recordCode item = RecordImpl.code ⟨item.header, names, names⟩ := by
  rw [recordCode, deriveRecord_of_named h]

theorem whole_recordCode (h : item.body = .struct (.named names)) :
    CodeReader.whole? (CodeReader.record item.header) (recordCode item) =
      some ⟨sinkParameter, names, names⟩ := by
  rw [recordCode_of_named h]
  exact (CodeReader.reads_record ⟨item.header, names, names⟩).whole

theorem deriveRecord_eq_error (h : ∀ names, item.body ≠ .struct (.named names)) :
    ∃ r, deriveRecord item = .error r := by
  rw [deriveRecord]
  cases hbody : item.body with
  | struct fields =>
    cases fields with
    | named names => exact absurd hbody (h names)
    | unit | tuple => exact ⟨_, rfl⟩
  | union | enum => exact ⟨_, rfl⟩

theorem exists_named_of_deriveRecord {r : RecordImpl} (h : deriveRecord item = .ok r) :
    ∃ names, item.body = .struct (.named names) := by
  by_contra hother
  obtain ⟨rejection, herror⟩ := deriveRecord_eq_error (not_exists.1 hother)
  cases h.symm.trans herror

end

/-- For every struct with named fields code is generated, and its tokens say that the declared
fields are written and read, each once and in the order of their declaration. Whatever the types of
the fields are, this code defines a binary form of the records: it is as long as the forms of the
fields together, and if every field is read back in front of anything, so is the record. Every other
item is rejected, and its code has no implementation. -/
theorem derived_record_round_trips (item : Item) :
    (∀ names, item.body = .struct (.named names) →
      ∃ r code, deriveRecord item = .ok r ∧ recordCode item = r.code ∧
        CodeReader.whole? (CodeReader.record item.header) (recordCode item) = some code ∧
        code.written = names ∧ code.initialised = names ∧
        ∀ types : String → FieldType, ∃ wire : Wire (Record types names),
          code.wire? types names = some wire ∧
          (∀ r : Record types names, byteCount r = (bytes r).length ∧
            (bytes r).length = (names.attach.map fun field => byteCount (r field)).sum) ∧
          ((∀ name ∈ names, (types name).RoundTrips) →
            ∀ (r : Record types names) (rest : Bytes),
              Wire.decode (bytes r ++ rest) = .ok r rest)) ∧
    ((∀ names, item.body ≠ .struct (.named names)) →
      ∃ r, deriveRecord item = .error r ∧ recordCode item = r.code ∧ "impl" ∉ recordCode item) := by
  constructor
  · intro names hbody
    refine ⟨_, _, deriveRecord_of_named hbody, recordCode_of_named hbody, whole_recordCode hbody,
      rfl, rfl, fun types => ?_⟩
    obtain ⟨wire, hwire, hencode, hdecode⟩ := exists_wire types sinkParameter names
    refine ⟨wire, hwire, fun r => byteCount_eq_sum fun sink out => hencode sink r out,
      fun hlawful r rest => ?_⟩
    rw [bytes_eq fun sink out => hencode sink r out]
    exact hdecode _ _ _ (readFields_flatMap r hlawful names (fun _ h => h) rest)
  · intro hbody
    obtain ⟨r, hr⟩ := deriveRecord_eq_error hbody
    have hcode : recordCode item = r.code := by rw [recordCode, hr]
    exact ⟨r, hr, hcode, hcode ▸ impl_not_mem_code r⟩

/-- A record of a tag and a word takes up twelve bytes. -/
theorem derived_record_round_trips_twelve_bytes :
    let kind (name : String) : Kind := if name = "tag" then .uint32 else .word
    let types (name : String) : FieldType := .ofKind (kind name)
    let item : Item := ⟨⟨"Instruction", [], []⟩, .struct (.named ["tag", "operand"])⟩
    ∃ code, CodeReader.whole? (CodeReader.record item.header) (recordCode item) = some code ∧
      ∃ wire : Wire (Record types ["tag", "operand"]),
        code.wire? types ["tag", "operand"] = some wire ∧
        ∀ (r : Record types ["tag", "operand"]) (rest : Bytes),
          byteCount r = 12 ∧ Wire.decode (bytes r ++ rest) = .ok r rest := by
  intro kind types item
  obtain ⟨-, code, -, -, hread, -, -, hwire⟩ :=
    (derived_record_round_trips item).1 ["tag", "operand"] rfl
  obtain ⟨wire, hsome, hlength, hround⟩ := hwire types
  refine ⟨code, hread, wire, hsome,
    fun r rest => ⟨?_, hround (fun name _ => FieldType.roundTrips_ofKind (kind name)) r rest⟩⟩
  have hfield (field : Declared ["tag", "operand"]) :
      byteCount (r field) = (kind field.val).width := by
    rw [FieldType.byteCount_eq]
    exact (kind field.val).exact.length_bytes (r field)
  rw [(hlength r).1, (hlength r).2]
  simp only [hfield]
  rfl

end StackMachine.Derive
