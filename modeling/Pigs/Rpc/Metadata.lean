import Mathlib.Data.List.Basic
import Mathlib.Logic.Function.Basic
import Pigs.Lib.Assoc

/-! The metadata that the client's interceptor puts on a request and that a server reads off it. -/

namespace Pigs.Rpc

def REQUEST_ID : String := "x-request-id"
def TRACE_ID : String := "x-trace-id"
def NODE_ID : String := "x-node-id"
def INSTANCE_ID : String := "x-instance-id"
def PROTOCOL_VERSION : String := "x-protocol-version"
def AUTHORIZATION : String := "authorization"

def isVisibleAscii (text : List Char) : Bool :=
  text.all fun ch => ch == '\t' || (decide (32 ≤ ch.toNat) && decide (ch.toNat < 127))

/-- What is read back of a text. -/
def readable (text : List Char) : Option (List Char) := if isVisibleAscii text then some text else none

/-- `MetadataValue::<Ascii>`: which texts are values, and how a value is read. -/
structure AsciiValue (Value : Type) where
  fromStr : List Char → Option Value
  toStr : Value → Option (List Char)

/-- `to_str` yields a text only where the value contains only visible ASCII; `from_str` accepts more. -/
def AsciiValue.YieldsVisible {Value : Type} (ascii : AsciiValue Value) : Prop :=
  ∀ text value, ascii.fromStr text = some value → ascii.toStr value = readable text

/-- The values of each name, the first one in front. -/
abbrev MetadataMap (Value : Type) := String → List Value

structure RpcMetadata where
  requestId : Option (List Char)
  traceId : Option (List Char)
  nodeId : Option (List Char)
  instanceId : Option (List Char)
  protocolVersion : Option (List Char)
  bearerToken : Option (List Char)
  deriving DecidableEq

/-- `RpcError::InvalidMetadata`, inside `Status::invalid_argument`. -/
structure InvalidArgument where
  message : List Char
  deriving DecidableEq

def invalidMetadata (name : String) (value : List Char) : InvalidArgument where
  message := "invalid metadata value for ".toList ++ name.toList ++ ": ".toList ++ value

def bearer : List Char := "Bearer ".toList

section Interceptor

variable {Value : Type} (ascii : AsciiValue Value)

def insertValue (metadata : MetadataMap Value) (name : String) (value : List Char) :
    Except InvalidArgument (MetadataMap Value) :=
  match ascii.fromStr value with
  | none => .error (invalidMetadata name value)
  | some value => .ok (Function.update metadata name [value])

def insertOptional (metadata : MetadataMap Value) (name : String) (value : Option (List Char)) :
    Except InvalidArgument (MetadataMap Value) :=
  match value with
  | some value => insertValue ascii metadata name value
  | none => .ok metadata

/-- `ClientMetadataInterceptor::call` -/
def call (given : RpcMetadata) (metadata : MetadataMap Value) : Except InvalidArgument (MetadataMap Value) := do
  let metadata ← insertOptional ascii metadata REQUEST_ID given.requestId
  let metadata ← insertOptional ascii metadata TRACE_ID given.traceId
  let metadata ← insertOptional ascii metadata NODE_ID given.nodeId
  let metadata ← insertOptional ascii metadata INSTANCE_ID given.instanceId
  let metadata ← insertOptional ascii metadata PROTOCOL_VERSION given.protocolVersion
  match given.bearerToken with
  | some token => insertValue ascii metadata AUTHORIZATION (bearer ++ token)
  | none => .ok metadata

def getValue (metadata : MetadataMap Value) (name : String) : Option (List Char) :=
  (metadata name).head?.bind ascii.toStr

def extractRpcMetadata (metadata : MetadataMap Value) : RpcMetadata where
  requestId := getValue ascii metadata REQUEST_ID
  traceId := getValue ascii metadata TRACE_ID
  nodeId := getValue ascii metadata NODE_ID
  instanceId := getValue ascii metadata INSTANCE_ID
  protocolVersion := getValue ascii metadata PROTOCOL_VERSION
  bearerToken := (getValue ascii metadata AUTHORIZATION).bind bearer.isPrefixOf?

end Interceptor

namespace RpcMetadata

/-- The headers of the given fields, in the order in which the interceptor inserts them. -/
def headers (given : RpcMetadata) : List (String × List Char) :=
  (given.requestId.map (REQUEST_ID, ·)).toList ++ (given.traceId.map (TRACE_ID, ·)).toList ++
    (given.nodeId.map (NODE_ID, ·)).toList ++ (given.instanceId.map (INSTANCE_ID, ·)).toList ++
    (given.protocolVersion.map (PROTOCOL_VERSION, ·)).toList ++
    (given.bearerToken.map fun token => (AUTHORIZATION, bearer ++ token)).toList

/-- The fields of `given`, and those of `before` where `given` leaves them out. -/
def overlay (given before : RpcMetadata) : RpcMetadata where
  requestId := given.requestId.or before.requestId
  traceId := given.traceId.or before.traceId
  nodeId := given.nodeId.or before.nodeId
  instanceId := given.instanceId.or before.instanceId
  protocolVersion := given.protocolVersion.or before.protocolVersion
  bearerToken := given.bearerToken.or before.bearerToken

/-- The given field as it is read back, and the one of before where none is given. -/
def readField (given before : Option (List Char)) : Option (List Char) :=
  match given with
  | some text => readable text
  | none => before

/-- What is read back of the fields of `given`, and those of `before` where `given` leaves them out. -/
def readOver (given before : RpcMetadata) : RpcMetadata where
  requestId := readField given.requestId before.requestId
  traceId := readField given.traceId before.traceId
  nodeId := readField given.nodeId before.nodeId
  instanceId := readField given.instanceId before.instanceId
  protocolVersion := readField given.protocolVersion before.protocolVersion
  bearerToken := readField given.bearerToken before.bearerToken

end RpcMetadata

section Interceptor

variable {Value : Type} (ascii : AsciiValue Value)

/-- Inserting headers one after another, up to the first that is no value. -/
def insertAll (metadata : MetadataMap Value) (headers : List (String × List Char)) :
    Except InvalidArgument (MetadataMap Value) :=
  headers.foldlM (fun metadata header => insertValue ascii metadata header.1 header.2) metadata

theorem insertAll_append (metadata : MetadataMap Value) (front back : List (String × List Char)) :
    insertAll ascii metadata (front ++ back) =
      insertAll ascii metadata front >>= fun metadata => insertAll ascii metadata back :=
  List.foldlM_append

theorem insertAll_cons (metadata : MetadataMap Value) (header : String × List Char)
    (headers : List (String × List Char)) : insertAll ascii metadata (header :: headers) =
      insertValue ascii metadata header.1 header.2 >>= fun metadata => insertAll ascii metadata headers :=
  List.foldlM_cons ..

theorem insertAll_toList (metadata : MetadataMap Value) (name : String) (value : Option (List Char)) :
    insertAll ascii metadata (value.map (name, ·)).toList = insertOptional ascii metadata name value := by
  cases value with
  | none => rfl
  | some value =>
      rw [Option.map_some, Option.toList_some, insertAll_cons, insertOptional]
      cases insertValue ascii metadata name value <;> rfl

/-- The interceptor inserts the headers of its fields one after another. -/
theorem call_eq_insertAll (given : RpcMetadata) (metadata : MetadataMap Value) :
    call ascii given metadata = insertAll ascii metadata given.headers := by
  have last (metadata : MetadataMap Value) :
      insertAll ascii metadata (given.bearerToken.map fun token => (AUTHORIZATION, bearer ++ token)).toList =
        match given.bearerToken with
        | some token => insertValue ascii metadata AUTHORIZATION (bearer ++ token)
        | none => .ok metadata := by
    have shape := insertAll_toList ascii metadata AUTHORIZATION (given.bearerToken.map (bearer ++ ·))
    rw [Option.map_map] at shape
    cases token : given.bearerToken with
    | none => rfl
    | some token =>
        rw [token] at shape
        exact shape
  simp only [call, RpcMetadata.headers, insertAll_append, insertAll_toList, last, bind_assoc]

theorem insertAll_error_iff (metadata : MetadataMap Value) (headers : List (String × List Char))
    (status : InvalidArgument) :
    insertAll ascii metadata headers = .error status ↔
      ∃ front header back, headers = front ++ header :: back ∧
        (∀ earlier ∈ front, (ascii.fromStr earlier.2).isSome) ∧ ascii.fromStr header.2 = none ∧
        status = invalidMetadata header.1 header.2 := by
  induction headers generalizing metadata with
  | nil =>
      constructor
      · intro same
        cases same
      · rintro ⟨front, header, back, split, _⟩
        simp at split
  | cons header headers ih =>
      rw [insertAll_cons, insertValue]
      cases valid : ascii.fromStr header.2 with
      | none =>
          constructor
          · intro same
            cases same
            exact ⟨[], header, headers, rfl, by simp, valid, rfl⟩
          · rintro ⟨front, first, back, split, earlier, invalid, rfl⟩
            cases front with
            | nil =>
                cases split
                rfl
            | cons other front =>
                cases split
                simp [valid] at earlier
      | some value =>
          have next := ih (Function.update metadata header.1 [value])
          refine next.trans ⟨?_, ?_⟩
          · rintro ⟨front, first, back, rfl, earlier, rest⟩
            refine ⟨header :: front, first, back, rfl, ?_, rest⟩
            intro other member
            rcases List.mem_cons.mp member with rfl | inside
            · rw [valid]
              rfl
            · exact earlier other inside
          · rintro ⟨front, first, back, split, earlier, invalid, rest⟩
            cases front with
            | nil =>
                cases split
                rw [valid] at invalid
                cases invalid
            | cons other front =>
                cases split
                exact ⟨front, first, back, rfl, fun x inside => earlier x (List.mem_cons_of_mem _ inside),
                  invalid, rest⟩

theorem insertAll_ok_iff (metadata : MetadataMap Value) (headers : List (String × List Char)) :
    (∃ after, insertAll ascii metadata headers = .ok after) ↔
      ∀ header ∈ headers, (ascii.fromStr header.2).isSome := by
  induction headers generalizing metadata with
  | nil => simp [insertAll, pure, Except.pure]
  | cons header headers ih =>
      rw [insertAll_cons, insertValue, List.forall_mem_cons]
      cases valid : ascii.fromStr header.2 with
      | none =>
          refine ⟨?_, fun all => by simp at all⟩
          rintro ⟨after, same⟩
          cases same
      | some value =>
          have next := ih (Function.update metadata header.1 [value])
          exact next.trans ⟨fun rest => ⟨rfl, rest⟩, fun both => both.2⟩

/-- A value that was inserted is the only one of its name, and the other names keep theirs. -/
theorem insertAll_values (metadata after : MetadataMap Value) (headers : List (String × List Char))
    (names : (headers.map Prod.fst).Nodup) (inserted : insertAll ascii metadata headers = .ok after)
    (name : String) : after name =
      match headers.lookup name with
      | some text => (ascii.fromStr text).toList
      | none => metadata name := by
  induction headers generalizing metadata with
  | nil =>
      cases inserted
      rfl
  | cons header headers ih =>
      obtain ⟨first, text⟩ := header
      rw [List.map_cons, List.nodup_cons] at names
      rw [insertAll_cons, insertValue] at inserted
      cases valid : ascii.fromStr text with
      | none =>
          simp only [valid] at inserted
          cases inserted
      | some value =>
          simp only [valid] at inserted
          have rest := ih (Function.update metadata first [value]) names.2 inserted
          rw [rest, List.lookup_cons]
          by_cases here : name = first
          · subst here
            have absent : headers.lookup name = none := by
              rw [List.lookup_eq_none_iff]
              intro other member
              have apart : name ≠ other.1 := fun same =>
                names.1 (List.mem_map.mpr ⟨other, member, same.symm⟩)
              simpa using apart
            simp [absent, valid]
          · rw [beq_eq_false_iff_ne.mpr here]
            cases headers.lookup name with
            | none => exact Function.update_of_ne here ..
            | some found => rfl

end Interceptor

/-! The headers by name. -/

namespace RpcMetadata

/-- The text that the interceptor gives to a name. -/
def field (given : RpcMetadata) (name : String) : Option (List Char) :=
  if name = REQUEST_ID then given.requestId
  else if name = TRACE_ID then given.traceId
  else if name = NODE_ID then given.nodeId
  else if name = INSTANCE_ID then given.instanceId
  else if name = PROTOCOL_VERSION then given.protocolVersion
  else if name = AUTHORIZATION then given.bearerToken.map (bearer ++ ·)
  else none

theorem lookup_toList (name other : String) (value : Option (List Char)) :
    (value.map (name, ·)).toList.lookup other = if other = name then value else none := by
  cases value with
  | none => simp
  | some value =>
      rw [Option.map_some, Option.toList_some, List.lookup_cons]
      by_cases here : other = name
      · simp [here]
      · simp [here, beq_eq_false_iff_ne.mpr here]

theorem headers_lookup (given : RpcMetadata) (name : String) : given.headers.lookup name = given.field name := by
  have last : (given.bearerToken.map fun token => (AUTHORIZATION, bearer ++ token)).toList =
      ((given.bearerToken.map (bearer ++ ·)).map (AUTHORIZATION, ·)).toList := by
    rw [Option.map_map]
    rfl
  rw [headers, last]
  simp only [List.lookup_append, lookup_toList, field]
  by_cases request : name = REQUEST_ID
  · subst request
    simp [REQUEST_ID, TRACE_ID, NODE_ID, INSTANCE_ID, PROTOCOL_VERSION, AUTHORIZATION]
  by_cases trace : name = TRACE_ID
  · subst trace
    simp [REQUEST_ID, TRACE_ID, NODE_ID, INSTANCE_ID, PROTOCOL_VERSION, AUTHORIZATION]
  by_cases node : name = NODE_ID
  · subst node
    simp [REQUEST_ID, TRACE_ID, NODE_ID, INSTANCE_ID, PROTOCOL_VERSION, AUTHORIZATION]
  by_cases inst : name = INSTANCE_ID
  · subst inst
    simp [REQUEST_ID, TRACE_ID, NODE_ID, INSTANCE_ID, PROTOCOL_VERSION, AUTHORIZATION]
  by_cases protocol : name = PROTOCOL_VERSION
  · subst protocol
    simp [REQUEST_ID, TRACE_ID, NODE_ID, INSTANCE_ID, PROTOCOL_VERSION, AUTHORIZATION]
  simp [request, trace, node, inst, protocol]

theorem headers_names (given : RpcMetadata) : (given.headers.map Prod.fst).Nodup := by
  have one (name : String) (text : List Char → List Char) (value : Option (List Char)) :
      ((value.map fun value => (name, text value)).toList.map Prod.fst).Sublist [name] := by
    cases value with
    | none => exact .cons _ .slnil
    | some value => exact .refl _
  have all : (given.headers.map Prod.fst).Sublist
      [REQUEST_ID, TRACE_ID, NODE_ID, INSTANCE_ID, PROTOCOL_VERSION, AUTHORIZATION] := by
    simp only [headers, List.map_append]
    exact (((((one _ id _).append (one _ id _)).append (one _ id _)).append (one _ id _)).append
      (one _ id _)).append (one _ (bearer ++ ·) _)
  exact all.nodup (by decide)

theorem field_overlay (later given : RpcMetadata) (name : String) :
    (later.overlay given).field name = (later.field name).or (given.field name) := by
  have token : (later.bearerToken.or given.bearerToken).map (bearer ++ ·) =
      (later.bearerToken.map (bearer ++ ·)).or (given.bearerToken.map (bearer ++ ·)) := by
    cases later.bearerToken <;> rfl
  simp only [field, overlay, token]
  split_ifs <;> rfl

end RpcMetadata

section Interceptor

variable {Value : Type} (ascii : AsciiValue Value)

theorem call_values (given : RpcMetadata) (metadata after : MetadataMap Value)
    (called : call ascii given metadata = .ok after) (name : String) : after name =
      match given.field name with
      | some text => (ascii.fromStr text).toList
      | none => metadata name := by
  rw [call_eq_insertAll] at called
  rw [insertAll_values ascii metadata after given.headers given.headers_names called name, given.headers_lookup]

/-- Every header of a call that succeeds is a value. -/
theorem call_valid (given : RpcMetadata) (metadata after : MetadataMap Value)
    (called : call ascii given metadata = .ok after) (name : String) (text : List Char)
    (present : given.field name = some text) : (ascii.fromStr text).isSome := by
  rw [call_eq_insertAll] at called
  rw [← given.headers_lookup, List.lookup_eq_some_iff] at present
  obtain ⟨front, back, split, _⟩ := present
  apply (insertAll_ok_iff ascii metadata given.headers).mp ⟨after, called⟩ (name, text)
  rw [split]
  exact List.mem_append_right _ List.mem_cons_self

variable {ascii}

theorem getValue_called (yields : ascii.YieldsVisible) (given : RpcMetadata) (metadata after : MetadataMap Value)
    (called : call ascii given metadata = .ok after) (name : String) :
    getValue ascii after name = RpcMetadata.readField (given.field name) (getValue ascii metadata name) := by
  rw [getValue, call_values ascii given metadata after called name]
  cases present : given.field name with
  | none => rfl
  | some text =>
      obtain ⟨value, valid⟩ :=
        Option.isSome_iff_exists.mp (call_valid ascii given metadata after called name text present)
      simp [valid, yields text value valid, RpcMetadata.readField]

theorem readable_bearer (token : List Char) :
    (readable (bearer ++ token)).bind bearer.isPrefixOf? = readable token := by
  have visible : isVisibleAscii bearer = true := by decide
  have same : isVisibleAscii (bearer ++ token) = isVisibleAscii token := by
    rw [isVisibleAscii, List.all_append]
    exact congrArg (· && isVisibleAscii token) visible
  rw [readable, readable, same]
  split
  · rw [Option.bind_some, List.isPrefixOf?_eq_some_iff_append_eq]
  · rfl

/-- The server reads the given fields, and under them what the request had before. -/
theorem extract_called (yields : ascii.YieldsVisible) (given : RpcMetadata) (metadata after : MetadataMap Value)
    (called : call ascii given metadata = .ok after) :
    extractRpcMetadata ascii after = given.readOver (extractRpcMetadata ascii metadata) := by
  have token (before : Option (List Char)) :
      (RpcMetadata.readField (given.bearerToken.map (bearer ++ ·)) before).bind bearer.isPrefixOf? =
        RpcMetadata.readField given.bearerToken (before.bind bearer.isPrefixOf?) := by
    cases given.bearerToken with
    | none => rfl
    | some token => exact readable_bearer token
  simp only [extractRpcMetadata, getValue_called yields given metadata after called, RpcMetadata.readOver]
  have request : given.field REQUEST_ID = given.requestId := rfl
  have trace : given.field TRACE_ID = given.traceId := rfl
  have node : given.field NODE_ID = given.nodeId := rfl
  have inst : given.field INSTANCE_ID = given.instanceId := rfl
  have protocol : given.field PROTOCOL_VERSION = given.protocolVersion := rfl
  have bearing : given.field AUTHORIZATION = given.bearerToken.map (bearer ++ ·) := rfl
  rw [request, trace, node, inst, protocol, bearing, token]

/-- Fields of visible ASCII are read as they were given. -/
theorem readOver_visible (given before : RpcMetadata)
    (visible : ∀ header ∈ given.headers, isVisibleAscii header.2 = true) :
    given.readOver before = given.overlay before := by
  have kept (text : Option (List Char)) (old : Option (List Char))
      (plain : ∀ found, text = some found → isVisibleAscii found = true) :
      RpcMetadata.readField text old = text.or old := by
    cases text with
    | none => rfl
    | some found => exact if_pos (plain found rfl)
  have named (name : String) (text : List Char) (present : given.field name = some text) :
      isVisibleAscii text = true := by
    rw [← given.headers_lookup] at present
    exact visible (name, text) ((Lib.lookup_iff_mem _ given.headers_names name text).mp present)
  have token : ∀ found, given.bearerToken = some found → isVisibleAscii found = true := by
    intro found present
    have whole := named AUTHORIZATION (bearer ++ found) (by
      change given.bearerToken.map (bearer ++ ·) = _
      rw [present]
      rfl)
    rw [isVisibleAscii, List.all_append, Bool.and_eq_true] at whole
    exact whole.2
  rw [RpcMetadata.readOver, RpcMetadata.overlay, kept given.requestId _ (named REQUEST_ID),
    kept given.traceId _ (named TRACE_ID), kept given.nodeId _ (named NODE_ID),
    kept given.instanceId _ (named INSTANCE_ID), kept given.protocolVersion _ (named PROTOCOL_VERSION),
    kept given.bearerToken _ token]

variable (ascii)

/-- One interceptor behind another is one with the fields of both. -/
theorem call_overlay (given later : RpcMetadata) (metadata after done : MetadataMap Value)
    (called : call ascii given metadata = .ok after) (again : call ascii later after = .ok done) :
    call ascii (later.overlay given) metadata = .ok done := by
  have valid : ∀ header ∈ (later.overlay given).headers, (ascii.fromStr header.2).isSome := by
    intro header member
    obtain ⟨name, text⟩ := header
    have present : (later.overlay given).field name = some text := by
      rw [← RpcMetadata.headers_lookup]
      exact (Lib.lookup_iff_mem _ (later.overlay given).headers_names name text).mpr member
    rw [RpcMetadata.field_overlay] at present
    cases first : later.field name with
    | none =>
        rw [first] at present
        exact call_valid ascii given metadata after called name text present
    | some found =>
        rw [first] at present
        cases present
        exact call_valid ascii later after done again name text first
  obtain ⟨both, joined⟩ := (insertAll_ok_iff ascii metadata (later.overlay given).headers).mpr valid
  rw [← call_eq_insertAll] at joined
  rw [joined]
  congr 1
  funext name
  rw [call_values ascii _ metadata both joined name, call_values ascii later after done again name,
    call_values ascii given metadata after called name, RpcMetadata.field_overlay]
  cases later.field name <;> rfl

/-- The interceptor fails at its first field that is no value, and says which. Otherwise the server reads
each given field of visible ASCII, none where other characters were given, and what the request had where
nothing was given; no other name changes, and interceptors behind one another add up. -/
theorem interceptor_sets_what_is_given (yields : ascii.YieldsVisible) (given : RpcMetadata)
    (metadata : MetadataMap Value) :
    (∀ status, call ascii given metadata = .error status ↔
      ∃ front header back, given.headers = front ++ header :: back ∧
        (∀ earlier ∈ front, (ascii.fromStr earlier.2).isSome) ∧ ascii.fromStr header.2 = none ∧
        status = invalidMetadata header.1 header.2) ∧
    ∀ after, call ascii given metadata = .ok after →
      extractRpcMetadata ascii after = given.readOver (extractRpcMetadata ascii metadata) ∧
      ((∀ header ∈ given.headers, isVisibleAscii header.2 = true) →
        extractRpcMetadata ascii after = given.overlay (extractRpcMetadata ascii metadata)) ∧
      (∀ name, given.field name = none → after name = metadata name) ∧
      ∀ later done, call ascii later after = .ok done → call ascii (later.overlay given) metadata = .ok done := by
  constructor
  · intro status
    rw [call_eq_insertAll]
    exact insertAll_error_iff ascii metadata given.headers status
  · intro after called
    have extracted := extract_called yields given metadata after called
    refine ⟨extracted, ?_, ?_, ?_⟩
    · intro visible
      rw [extracted, readOver_visible given _ visible]
    · intro name absent
      rw [call_values ascii given metadata after called name, absent]
    · exact fun later done again => call_overlay ascii given later metadata after done called again

end Interceptor

/-- `from_str` refuses control characters only, so it takes every character outside ASCII. -/
def headerValue : AsciiValue (List Char) where
  fromStr text :=
    if text.all fun ch => ch == '\t' || (decide (32 ≤ ch.toNat) && decide (ch.toNat ≠ 127)) then some text else none
  toStr := readable

theorem headerValue_yields : headerValue.YieldsVisible := by
  intro text value read
  simp only [headerValue] at read ⊢
  split at read
  · rw [Option.some.inj read]
  · cases read

/-- A trace id and a token are read back, `é` as a request id is not, and the node id was there before. -/
theorem interceptor_sets_what_is_given_accent :
    let given : RpcMetadata := ⟨some ['é'], some ['7'], none, none, none, some ['s']⟩
    let metadata : MetadataMap (List Char) := Function.update (Function.update (fun _ => []) NODE_ID [['n']])
      REQUEST_ID [['1']]
    ∃ after, call headerValue given metadata = .ok after ∧
      extractRpcMetadata headerValue after = ⟨none, some ['7'], some ['n'], none, none, some ['s']⟩ := by
  intro given metadata
  obtain ⟨after, called⟩ : ∃ after, call headerValue given metadata = .ok after := ⟨_, rfl⟩
  have read := (interceptor_sets_what_is_given headerValue headerValue_yields given metadata).2 after called
  exact ⟨after, called, read.1.trans (by decide)⟩

-- The first field passes, and the token does not.
example : call headerValue ⟨some ['1'], none, none, none, none, some ['\n']⟩ (fun _ => []) =
    .error (invalidMetadata AUTHORIZATION (bearer ++ ['\n'])) := rfl

end Pigs.Rpc
