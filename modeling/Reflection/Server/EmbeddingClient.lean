/-
The client of the embedding service.

An answer's rows come in any order, each with its place in the batch. What a request is answered with,
`JSON.parse` and two predicates on numbers are parameters.
-/

import Reflection.Foundation.SortedLists
import Reflection.Server.EmbeddingBatches
import Reflection.Server.ResolvedSegments
import Reflection.Shared.JsonReading
import Reflection.Shared.ToolRecognition

namespace Reflection

open JsString ExtractionEngine

inductive EmbeddingError
  /-- the request failed or timed out -/
  | upstream (message : String)
  | response (message : String)
  | terminal (error : TerminalExtractionValidationError)
deriving DecidableEq

def EmbeddingError.message : EmbeddingError → JsString
  | .upstream message => ofString message
  | .response message => ofString message
  | .terminal error => ofString error.message

structure EmbeddingRow (Number : Type) where
  index : Int
  embedding : List Number

structure EmbeddingClient (Number : Type) where
  embeddingDimensions : Nat
  /-- the text of the response to a batch and an input type, or what the request throws -/
  responseBody : List JsString → JsString → Except EmbeddingError JsString
  /-- `JSON.parse` -/
  parse : JsString → Option (Json Number)
  /-- the value of a number for which `Number.isInteger` holds -/
  integer : Number → Option Int
  isFinite : Number → Bool

namespace EmbeddingClient

variable {Number : Type}

section Client

variable (client : EmbeddingClient Number)

def embeddingValue : Json Number → Option Number
  | .number item => if client.isFinite item then some item else none
  | _ => none

def embeddingRow : Json Number → Option (EmbeddingRow Number)
  | .object row =>
      match property (ofString "index") row, property (ofString "embedding") row with
      | some (.number index), some (.array items) => do
          let place ← client.integer index
          let embedding ← items.mapM client.embeddingValue
          some
            { index := place
              embedding := embedding }
      | _, _ => none
  | _ => none

def embeddingRows (body : JsString) : Option (List (EmbeddingRow Number)) :=
  match client.parse body with
  | some (.object payload) =>
      match property (ofString "data") payload with
      | some (.array data) => data.mapM client.embeddingRow
      | _ => none
  | _ => none

def wrongShape (count : Nat) (rows : List (EmbeddingRow Number)) : Bool :=
  rows.length != count || rows.zipIdx.any fun entry =>
    entry.1.index != entry.2 || entry.1.embedding.length != client.embeddingDimensions

def embedBatch (texts : List JsString) (inputType : JsString) : Except EmbeddingError (List (List Number)) := do
  let body ← client.responseBody texts inputType
  match client.embeddingRows body with
  | none => .error (.response "invalid Voyage embedding response")
  | some rows =>
      let rows := rows.insertionSort fun left right => left.index ≤ right.index
      if client.wrongShape texts.length rows then .error (.response "Voyage returned the wrong embedding shape")
      else .ok (rows.map fun row => row.embedding)

/-- The loop, with the embeddings so far. -/
def embedBatches (inputType : JsString) (embeddings : List (List Number)) :
    List (List JsString) → Except EmbeddingError (List (List Number))
  | [] => .ok embeddings
  | batch :: batches => do
      let vectors ← client.embedBatch batch inputType
      embedBatches inputType (embeddings ++ vectors) batches

def embed (texts : List JsString) (inputType : JsString) : Except EmbeddingError (List (List Number)) :=
  if texts.length = 0 then .ok []
  else
    match partitionEmbeddingInputs texts with
    | .error error => .error (.terminal error)
    | .ok batches => client.embedBatches inputType [] batches

end Client

/-! ### Rows in any order -/

/-- The row of each vector, with its place. -/
def placed (vectors : List (List Number)) : List (EmbeddingRow Number) :=
  vectors.zipIdx.map fun entry => ⟨entry.2, entry.1⟩

theorem placed_inOrder (vectors : List (List Number)) :
    (placed vectors).Pairwise fun one other => one.index < other.index := by
  have places : (vectors.zipIdx.map Prod.snd).Pairwise fun one other => one < other := by
    rw [List.zipIdx_map_snd]
    exact List.pairwise_lt_range'
  rw [placed, List.pairwise_map]
  rw [List.pairwise_map] at places
  exact places.imp fun less => Int.ofNat_lt.mpr less

theorem placed_embedding (vectors : List (List Number)) :
    (placed vectors).map (fun row => row.embedding) = vectors := by
  rw [placed, List.map_map]
  exact List.zipIdx_map_fst 0 vectors

theorem placed_length (vectors : List (List Number)) : (placed vectors).length = vectors.length := by
  rw [placed, List.length_map, List.length_zipIdx]

theorem mem_placed_iff {vectors : List (List Number)} {row : EmbeddingRow Number} :
    row ∈ placed vectors ↔ ∃ place : Nat, row.index = place ∧ vectors[place]? = some row.embedding := by
  unfold placed
  rw [List.mem_map]
  constructor
  · rintro ⟨⟨vector, place⟩, inside, same⟩
    rw [← same]
    exact ⟨place, rfl, List.mem_zipIdx_iff_getElem?.mp inside⟩
  · rintro ⟨place, isPlace, found⟩
    refine ⟨(row.embedding, place), List.mem_zipIdx_iff_getElem?.mpr found, ?_⟩
    rw [← isPlace]

/-- The test the sorted rows pass. -/
theorem wrongShape_eq_false_iff {client : EmbeddingClient Number} {count : Nat}
    {rows : List (EmbeddingRow Number)} :
    client.wrongShape count rows = false ↔
      rows.length = count ∧ rows = placed (rows.map fun row => row.embedding) ∧
        ∀ row ∈ rows, row.embedding.length = client.embeddingDimensions := by
  have each : (rows.zipIdx.any fun entry =>
      entry.1.index != entry.2 || entry.1.embedding.length != client.embeddingDimensions) = false ↔
        ∀ (place : Nat) (row : EmbeddingRow Number), rows[place]? = some row →
          row.index = place ∧ row.embedding.length = client.embeddingDimensions := by
    rw [List.any_eq_false]
    constructor
    · intro all place row found
      have passes := all (row, place) (List.mem_zipIdx_iff_getElem?.mpr found)
      simpa using passes
    · rintro all ⟨row, place⟩ inside
      have passes := all place row (List.mem_zipIdx_iff_getElem?.mp inside)
      simpa using passes
  unfold wrongShape
  rw [Bool.or_eq_false_iff, bne_eq_false_iff_eq, each]
  refine and_congr_right fun _ => ⟨fun all => ⟨?_, fun row inside => ?_⟩, ?_⟩
  · refine List.ext_getElem? fun place => ?_
    rw [placed, List.getElem?_map, List.getElem?_zipIdx, List.getElem?_map]
    cases found : rows[place]? with
    | none => rfl
    | some row =>
        obtain ⟨isPlace, _⟩ := all place row found
        change some row = some ⟨((0 + place : Nat) : Int), row.embedding⟩
        rw [Nat.zero_add, ← isPlace]
  · obtain ⟨place, found⟩ := List.mem_iff_getElem?.mp inside
    exact (all place row found).2
  · rintro ⟨same, dimensions⟩ place row found
    refine ⟨?_, dimensions row (List.mem_of_getElem? found)⟩
    rw [same, placed, List.getElem?_map, List.getElem?_zipIdx] at found
    obtain ⟨entry, isEntry, isRow⟩ := Option.map_eq_some_iff.mp found
    obtain ⟨vector, _, same⟩ := Option.map_eq_some_iff.mp isEntry
    rw [← isRow, ← same]
    change ((0 + place : Nat) : Int) = place
    rw [Nat.zero_add]

/-- The service answers the batch with one row for each text, in any order. -/
structure Answers (client : EmbeddingClient Number) (inputType : JsString) (batch : List JsString)
    (vectors : List (List Number)) : Prop where
  length : vectors.length = batch.length
  dimensions : ∀ vector ∈ vectors, vector.length = client.embeddingDimensions
  rows : ∃ body rows, client.responseBody batch inputType = .ok body ∧
    client.embeddingRows body = some rows ∧ rows.Perm (placed vectors)

variable {client : EmbeddingClient Number} {inputType : JsString}

theorem embedBatch_returns_iff {batch : List JsString} {vectors : List (List Number)} :
    client.embedBatch batch inputType = .ok vectors ↔ client.Answers inputType batch vectors := by
  unfold embedBatch
  constructor
  · intro returned
    obtain ⟨body, isBody, returned⟩ := except_bind_ok returned
    split at returned
    · cases returned
    · rename_i rows areRows
      dsimp only at returned
      split at returned
      · cases returned
      · rename_i shape
        injection returned with same
        obtain ⟨count, inPlace, dimensions⟩ := wrongShape_eq_false_iff.mp (Bool.eq_false_iff.mpr shape)
        rw [same] at inPlace
        refine ⟨?_, fun vector inside => ?_, body, rows, isBody, areRows, ?_⟩
        · rw [← same, List.length_map]
          exact count
        · rw [← same] at inside
          obtain ⟨row, isRow, isVector⟩ := List.mem_map.mp inside
          rw [← isVector]
          exact dimensions row isRow
        · rw [← inPlace]
          exact (List.perm_insertionSort _ rows).symm
  · rintro ⟨count, dimensions, body, rows, isBody, areRows, perm⟩
    have sorted : (rows.insertionSort fun left right => left.index ≤ right.index) = placed vectors :=
      insertionSort_eq (fun _ _ before => before) (fun _ _ after => (not_le.mp after).le) (placed_inOrder vectors) perm
    have inShape : client.wrongShape batch.length (placed vectors) = false := by
      refine wrongShape_eq_false_iff.mpr ⟨(placed_length vectors).trans count, ?_, fun row inside => ?_⟩
      · rw [placed_embedding]
      · obtain ⟨place, _, found⟩ := mem_placed_iff.mp inside
        exact dimensions row.embedding (List.mem_of_getElem? found)
    rw [isBody, except_ok_bind, areRows]
    dsimp only
    rw [sorted, if_neg (Bool.eq_false_iff.mp inShape), placed_embedding]

theorem embedBatches_returns_iff {batches : List (List JsString)} {embeddings vectors : List (List Number)} :
    client.embedBatches inputType embeddings batches = .ok vectors ↔
      ∃ parts, List.Forall₂ (client.Answers inputType) batches parts ∧ embeddings ++ parts.flatten = vectors := by
  induction batches generalizing embeddings with
  | nil =>
      rw [embedBatches, Except.ok.injEq]
      constructor
      · intro same
        exact ⟨[], .nil, (List.append_nil embeddings).trans same⟩
      · rintro ⟨parts, answers, same⟩
        cases answers
        exact (List.append_nil embeddings).symm.trans same
  | cons batch batches ih =>
      rw [embedBatches]
      constructor
      · intro returned
        obtain ⟨part, isPart, returned⟩ := except_bind_ok returned
        obtain ⟨parts, answers, same⟩ := ih.mp returned
        refine ⟨part :: parts, .cons (embedBatch_returns_iff.mp isPart) answers, ?_⟩
        rw [List.flatten_cons, ← List.append_assoc]
        exact same
      · rintro ⟨parts, answers, same⟩
        cases answers with
        | @cons _ part _ parts first others =>
            rw [embedBatch_returns_iff.mpr first, except_ok_bind]
            refine ih.mpr ⟨parts, others, ?_⟩
            rw [List.append_assoc]
            exact same

theorem embed_answers {texts : List JsString} {vectors : List (List Number)}
    (returned : client.embed texts inputType = .ok vectors) :
    (∀ text ∈ texts, Sendable text) ∧ ∃ batches parts, Batched batches ∧ batches.flatten = texts ∧
      List.Forall₂ (client.Answers inputType) batches parts ∧ parts.flatten = vectors := by
  unfold embed at returned
  split at returned
  · rename_i empty
    injection returned with same
    rw [List.eq_nil_of_length_eq_zero empty]
    refine ⟨fun _ absent => absurd absent List.not_mem_nil, [], [], ⟨?_, ?_, List.isChain_nil⟩, rfl, .nil, same⟩
    · exact fun _ absent => absurd absent List.not_mem_nil
    · exact fun _ absent => absurd absent List.not_mem_nil
  · split at returned
    · cases returned
    · rename_i batches areBatches
      obtain ⟨sendable, batched, covers⟩ := (partitionEmbeddingInputs_returns_iff texts batches).mp areBatches
      obtain ⟨parts, answers, same⟩ := embedBatches_returns_iff.mp returned
      exact ⟨sendable, batches, parts, batched, covers, answers, same⟩

/-- Vectors come exactly where every text can be sent and the service answers each batch with one row
for each of its texts, whatever order the rows are in, and then in the order of the texts. -/
theorem embed_returns_iff (client : EmbeddingClient Number) (texts : List JsString) (inputType : JsString)
    (vectors : List (List Number)) :
    client.embed texts inputType = .ok vectors ↔
      (∀ text ∈ texts, Sendable text) ∧ ∃ batches parts, Batched batches ∧ batches.flatten = texts ∧
        List.Forall₂ (client.Answers inputType) batches parts ∧ parts.flatten = vectors := by
  refine ⟨embed_answers, ?_⟩
  rintro ⟨sendable, batches, parts, batched, covers, answers, same⟩
  have areBatches := (partitionEmbeddingInputs_returns_iff texts batches).mpr ⟨sendable, batched, covers⟩
  unfold embed
  split
  · rename_i empty
    rw [List.eq_nil_of_length_eq_zero empty] at covers
    rw [batched.eq_nil_of_flatten covers] at answers
    cases answers
    exact congrArg Except.ok same
  · rw [areBatches]
    exact embedBatches_returns_iff.mpr ⟨parts, answers, same⟩

/-! ### Vectors that belong to their texts -/

/-- Every row that answers a batch carries the vector of the text at its place. -/
def Measures (client : EmbeddingClient Number) (inputType : JsString) (vectorOf : JsString → List Number) : Prop :=
  ∀ batch body rows, client.responseBody batch inputType = .ok body → client.embeddingRows body = some rows →
    ∀ row ∈ rows, ∀ (place : Nat) (text : JsString), row.index = place → batch[place]? = some text →
      row.embedding = vectorOf text

theorem Measures.answers {vectorOf : JsString → List Number} (measures : client.Measures inputType vectorOf)
    {batch : List JsString} {vectors : List (List Number)} (answers : client.Answers inputType batch vectors) :
    vectors = batch.map vectorOf := by
  obtain ⟨count, _, body, rows, isBody, areRows, perm⟩ := answers
  refine List.ext_getElem? fun place => ?_
  rw [List.getElem?_map]
  cases found : batch[place]? with
  | none =>
      rw [List.getElem?_eq_none_iff, ← count] at found
      exact List.getElem?_eq_none_iff.mpr found
  | some text =>
      have inside : place < vectors.length := by
        rw [count]
        exact (List.getElem?_eq_some_iff.mp found).1
      have isVector : vectors[place]? = some vectors[place] := List.getElem?_eq_getElem inside
      have isRow : (⟨place, vectors[place]⟩ : EmbeddingRow Number) ∈ rows :=
        perm.mem_iff.mpr (mem_placed_iff.mpr ⟨place, rfl, isVector⟩)
      have own : vectors[place] = vectorOf text := measures batch body rows isBody areRows _ isRow place text rfl found
      rw [isVector, own]
      rfl

/-- However the texts were cut into batches and the rows of an answer were ordered, every text gets its
own vector. -/
theorem Measures.embed {vectorOf : JsString → List Number} (measures : client.Measures inputType vectorOf)
    {texts : List JsString} {vectors : List (List Number)} (returned : client.embed texts inputType = .ok vectors) :
    vectors = texts.map vectorOf := by
  obtain ⟨_, batches, parts, _, covers, answers, same⟩ := embed_answers returned
  have each : List.Forall₂ (fun one other => one = other) (batches.map fun batch => batch.map vectorOf) parts :=
    List.forall₂_map_left_iff.mpr (answers.imp fun _ _ answer => (measures.answers answer).symm)
  rw [List.forall₂_eq_eq_eq] at each
  rw [← same, ← covers, List.map_flatten, ← each]

/-- The client as the engine uses it. -/
def service (client : EmbeddingClient Number) (texts : List JsString) (inputType : JsString) :
    Except EngineError (List (List Number)) :=
  match client.embed texts inputType with
  | .ok vectors => .ok vectors
  | .error error => .error (.service error.message)

/-- With the client behind the engine, every embedding of a prepared segment is the vector of the very
document it is stored with. -/
theorem resolve_embedded (client : EmbeddingClient Number) (services : Services (List Number))
    (connected : services.embed = client.service)
    (unique : ∀ namespaceId, Function.Injective fun name => services.uuidv5 name namespaceId)
    (vectorOf : JsString → List Number) (measures : client.Measures (ofString "document") vectorOf)
    (job : Database.ClaimedJob) (extracted : ExtractionResult) (prepared : Prepared (List Number))
    (returned : resolve services job extracted = .ok prepared) :
    ∃ specs contexts plan, mentionContexts services extracted = .ok (specs, contexts) ∧
      resolutionPlan services job extracted contexts = .ok plan ∧
        Closed services job specs vectorOf plan prepared := by
  have inOrder : ∀ texts vectors, services.embed texts (ofString "document") = .ok vectors →
      vectors = texts.map vectorOf := by
    intro texts vectors embedded
    rw [connected] at embedded
    unfold service at embedded
    split at embedded
    · rename_i isReturned
      injection embedded with same
      rw [← same]
      exact measures.embed isReturned
    · cases embedded
  obtain ⟨⟨specs, contexts⟩, offered, returned⟩ := except_bind_ok returned
  obtain ⟨plan, isPlan, returned⟩ := except_bind_ok returned
  exact ⟨specs, contexts, plan, offered, isPlan,
    preparePlan_closed unique inOrder (contextSpecs_spec (mentionContexts_spec offered).1).1
      (resolutionPlan_planned offered isPlan) returned⟩

/-! ### Answers in reverse -/

def lastDigit (number : Nat) : digitNumbers.Number := ⟨number % 10, Nat.mod_lt _ (Nat.succ_pos 9)⟩

/-- Texts are told apart by their lengths. -/
def sampleVector (text : JsString) : List digitNumbers.Number := [lastDigit text.length]

def sampleRow (text : JsString) (place : Nat) : Json digitNumbers.Number :=
  .object
    [(ofString "index", .number (lastDigit place)),
      (ofString "embedding", .array ((sampleVector text).map .number))]

/-- The last text's row comes first. -/
def sampleAnswers (batch : List JsString) : Json digitNumbers.Number :=
  .object [(ofString "data", .array (batch.zipIdx.map fun entry => sampleRow entry.1 entry.2).reverse)]

/-- A provider that can number ten texts. -/
def sampleClient : EmbeddingClient digitNumbers.Number :=
  { embeddingDimensions := 1
    responseBody := fun batch _ =>
      if batch.length ≤ 10 then .ok (stringify digitNumbers (sampleAnswers batch))
      else .error (.upstream "upstream request failed: 400 Bad Request")
    parse := parseJson digitNumbers
    integer := fun number => some (Fin.val number)
    isFinite := fun _ => true }

def embeddedServices : Services (List digitNumbers.Number) :=
  { uuidv5 := sampleServices.uuidv5
    sha256 := sampleServices.sha256
    caseFold := sampleServices.caseFold
    embed := sampleClient.service
    entityCandidates := fun _ _ _ => .ok []
    answer := sampleServices.answer }

theorem sampleAnswers_valid (batch : List JsString) : (sampleAnswers batch).Valid := by
  have keys : [ofString "index", ofString "embedding"].Nodup := by decide
  refine .object (ordered_single _) fun entry isEntry => ?_
  rw [List.mem_singleton.mp isEntry]
  refine .array fun row isRow => ?_
  obtain ⟨_, _, same⟩ := List.mem_map.mp (List.mem_reverse.mp isRow)
  rw [← same]
  refine .object ⟨keys, rfl⟩ fun field isField => ?_
  rcases List.mem_cons.mp isField with isIndex | isEmbedding
  · rw [isIndex]
    exact .number _
  · rw [List.mem_singleton.mp isEmbedding]
    refine .array fun value isValue => ?_
    rw [List.mem_singleton.mp isValue]
    exact .number _

theorem sampleAnswers_rows (batch : List JsString) :
    sampleClient.embeddingRows (stringify digitNumbers (sampleAnswers batch)) =
      some (batch.zipIdx.map fun entry =>
        (⟨(entry.2 % 10 : Nat), sampleVector entry.1⟩ : EmbeddingRow digitNumbers.Number)).reverse := by
  have parsed : sampleClient.parse (stringify digitNumbers (sampleAnswers batch)) = some (sampleAnswers batch) :=
    parseJson_stringify (sampleAnswers_valid batch)
  unfold embeddingRows
  rw [parsed]
  change List.mapM sampleClient.embeddingRow (batch.zipIdx.map fun entry => sampleRow entry.1 entry.2).reverse = _
  rw [← List.map_reverse, ← List.map_reverse, List.mapM_map]
  exact List.mapM_pure

theorem sampleClient_measures : sampleClient.Measures (ofString "document") sampleVector := by
  intro batch body rows isBody areRows row inside place text isPlace found
  change (if batch.length ≤ 10 then .ok (stringify digitNumbers (sampleAnswers batch))
    else .error (EmbeddingError.upstream "upstream request failed: 400 Bad Request")) = Except.ok body at isBody
  split at isBody
  · rename_i few
    injection isBody with isBody
    rw [← isBody, sampleAnswers_rows, Option.some.injEq] at areRows
    rw [← areRows, List.mem_reverse] at inside
    obtain ⟨⟨other, index⟩, isEntry, isRow⟩ := List.mem_map.mp inside
    have foundOther := List.mem_zipIdx_iff_getElem?.mp isEntry
    have bound : index < batch.length := (List.getElem?_eq_some_iff.mp foundOther).1
    rw [← isRow] at isPlace ⊢
    have samePlace : index = place := by
      have sameDigit : index % 10 = place := Int.ofNat.inj isPlace
      rw [Nat.mod_eq_of_lt (bound.trans_le few)] at sameDigit
      exact sameDigit
    rw [samePlace] at foundOther
    have sameText : other = text := Option.some.inj (foundOther.symm.trans found)
    rw [sameText]
  · cases isBody

theorem resolve_embedded_sample : ∃ prepared, resolve embeddedServices resolvedJob friendship = .ok prepared ∧
    ∃ specs contexts plan, mentionContexts embeddedServices friendship = .ok (specs, contexts) ∧
      resolutionPlan embeddedServices resolvedJob friendship contexts = .ok plan ∧
        Closed embeddedServices resolvedJob specs sampleVector plan prepared := by
  have returns : (resolve embeddedServices resolvedJob friendship).toOption.isSome = true := by
    decide +kernel
  cases outcome : resolve embeddedServices resolvedJob friendship with
  | error error =>
      rw [outcome] at returns
      cases returns
  | ok prepared =>
      exact ⟨prepared, rfl, resolve_embedded sampleClient embeddedServices rfl
        (fun namespaceId _ _ same => List.append_cancel_left same) sampleVector sampleClient_measures resolvedJob
        friendship prepared outcome⟩

end EmbeddingClient

end Reflection
