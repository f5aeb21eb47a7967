/-
What the bound on a request says about the size the provider counts.

A provider counts a fixed part and a cost for each message. The tracker gives credit for the
messages of the remembered request and takes the total from the latest assistant. That is
sound where this assistant answers a request that had those messages. After a revert the
latest assistant may answer an older and smaller request.
-/

import Reflection.Foundation.Lists
import Reflection.Foundation.Runs
import Reflection.Plugin.Usage

set_option linter.unusedSectionVars false

namespace Reflection.Plugin

open JsString

section Bound

variable {N Digest : Type} [DecidableEq Digest]
variable [CommRing N] [LinearOrder N] [IsStrictOrderedRing N]
variable {platform : Platform N Digest}

structure Request (N : Type) where
  config : Config N
  messages : List (Message N)

variable (platform) in
/-- What a provider counts. It is the same for values with one digest, and no estimate is
smaller. The output of an assistant costs what its lowering does. -/
structure Pricing where
  fixed : Config N → N
  cost : Message N → N
  output : NativeHistoryMessage N → N
  fixed_nonneg : ∀ config, 0 ≤ fixed config
  cost_nonneg : ∀ message, 0 ≤ cost message
  output_nonneg : ∀ raw, 0 ≤ output raw
  fixed_congr : ∀ one other digest, platform.fingerprint one.payload = some digest →
    platform.fingerprint other.payload = some digest → fixed one = fixed other
  cost_congr : ∀ one other digest, messageHash platform one = some digest →
    messageHash platform other = some digest → cost one = cost other
  answer_congr : ∀ one other digest, platform.fingerprint one.payload = some digest →
    platform.fingerprint other.payload = some digest →
      reported one = reported other ∧ output one = output other
  lowered : ∀ record message provider, matchesAssistant platform record message provider = true →
    cost message ≤ output record.raw
  estimated : ∀ message copy tokens, estimationMessage platform message = some copy →
    platform.estimateNativeTokens copy = some tokens → cost message ≤ ((8 : Nat) : N) + tokens

variable {pricing : Pricing platform}

namespace Pricing

def total (pricing : Pricing platform) (messages : List (Message N)) : N :=
  (messages.map pricing.cost).sum

def size (pricing : Pricing platform) (request : Request N) : N :=
  pricing.fixed request.config + pricing.total request.messages

theorem total_nonneg (messages : List (Message N)) : 0 ≤ pricing.total messages := by
  apply List.sum_nonneg
  intro cost isCost
  obtain ⟨message, _, same⟩ := List.mem_map.mp isCost
  rw [← same]
  exact pricing.cost_nonneg message

theorem total_cons (message : Message N) (rest : List (Message N)) :
    pricing.total (message :: rest) = pricing.cost message + pricing.total rest := by
  rw [total, List.map_cons, List.sum_cons, total]

theorem total_append (one other : List (Message N)) :
    pricing.total (one ++ other) = pricing.total one + pricing.total other := by
  rw [total, List.map_append, List.sum_append, total, total]

open Classical in
/-- The cost of the messages with a digest. -/
noncomputable def digestCost (pricing : Pricing platform) (digest : Digest) : N :=
  if known : ∃ message : Message N, messageHash platform message = some digest then
    pricing.cost known.choose
  else 0

theorem digestCost_eq {message : Message N} {digest : Digest}
    (hashed : messageHash platform message = some digest) :
    pricing.digestCost digest = pricing.cost message := by
  have known : ∃ message : Message N, messageHash platform message = some digest :=
    ⟨message, hashed⟩
  rw [digestCost, dif_pos known]
  exact pricing.cost_congr _ _ digest known.choose_spec hashed

theorem digestCost_nonneg (digest : Digest) : 0 ≤ pricing.digestCost digest := by
  unfold digestCost
  split
  · exact pricing.cost_nonneg _
  · exact le_refl 0

noncomputable def digestTotal (pricing : Pricing platform) (digests : List Digest) : N :=
  (digests.map pricing.digestCost).sum

theorem digestTotal_nonneg (digests : List Digest) : 0 ≤ pricing.digestTotal digests := by
  apply List.sum_nonneg
  intro cost isCost
  obtain ⟨digest, _, same⟩ := List.mem_map.mp isCost
  rw [← same]
  exact digestCost_nonneg digest

theorem digestTotal_cons (digest : Digest) (rest : List Digest) :
    pricing.digestTotal (digest :: rest) = pricing.digestCost digest + pricing.digestTotal rest := by
  rw [digestTotal, List.map_cons, List.sum_cons, digestTotal]

/-- Fewer digests cost less. -/
theorem digestTotal_le {some_ all : List Digest} (contained : some_.Subperm all) :
    pricing.digestTotal some_ ≤ pricing.digestTotal all := by
  obtain ⟨chosen, same, within⟩ := contained
  have reordered : pricing.digestTotal some_ = pricing.digestTotal chosen :=
    ((same.map pricing.digestCost).sum_eq).symm
  rw [reordered]
  apply (within.map pricing.digestCost).sum_le_sum
  intro cost isCost
  obtain ⟨digest, _, same⟩ := List.mem_map.mp isCost
  rw [← same]
  exact digestCost_nonneg digest

/-- The digests that exist of some messages cost no more than the messages. -/
theorem digestTotal_filterMap_le (messages : List (Message N)) :
    pricing.digestTotal (messages.filterMap (messageHash platform)) ≤
      pricing.total messages := by
  induction messages with
  | nil => exact le_refl _
  | cons message rest ih =>
      rw [total_cons]
      cases hashed : messageHash platform message with
      | none =>
          rw [List.filterMap_cons_none hashed]
          exact le_add_of_nonneg_of_le (pricing.cost_nonneg message) ih
      | some digest =>
          rw [List.filterMap_cons_some hashed, digestTotal_cons, digestCost_eq hashed]
          exact add_le_add (le_refl _) ih

end Pricing

theorem Pricing.digestTotal_hashes {messages : List (Message N)} {hashes : List Digest}
    (hashed : messageHashes platform messages = some hashes) :
    pricing.digestTotal hashes = pricing.total messages := by
  induction messages generalizing hashes with
  | nil =>
      cases hashed
      rfl
  | cons message rest ih =>
      obtain ⟨digest, others, isDigest, isOthers, same⟩ := mapM_cons_some hashed
      rw [same, digestTotal_cons, total_cons, digestCost_eq isDigest, ih isOthers]

/-- Requests with the digests of one another have one size. -/
theorem Pricing.total_congr {one other : List (Message N)} {hashes : List Digest}
    (oneHashed : messageHashes platform one = some hashes)
    (otherHashed : messageHashes platform other = some hashes) :
    pricing.total one = pricing.total other := by
  rw [← digestTotal_hashes oneHashed, digestTotal_hashes otherHashed]

/-! ### Estimates of messages without credit -/

/-- The messages that get no credit from a list of digests. -/
def uncredited (left : List Digest) : List (Digest × Message N) → List (Message N)
  | [] => []
  | (hash, message) :: rest =>
      if hash ∈ left then uncredited (left.erase hash) rest
      else message :: uncredited left rest

variable (pricing) in
/-- What is not estimated is credited or the assistant's own output. -/
theorem uncreditedTokens_le {own : Message N → Bool} {messages : List (Message N)}
    {hashes left : List Digest} {copies : List (EstimationMessage N)} {sum result : N}
    (hashed : messageHashes platform messages = some hashes)
    (copied : estimateMessages platform messages = some copies)
    (added : uncreditedTokens platform own sum left (hashes.zip (messages.zip copies)) = some result) :
    sum + pricing.total messages ≤ result + pricing.digestTotal (hashes.bagInter left) +
      pricing.total ((uncredited left (hashes.zip messages)).filter own) := by
  induction messages generalizing hashes copies left sum with
  | nil =>
      cases hashed
      cases copied
      cases added
      change result + pricing.total [] ≤
        result + pricing.digestTotal (([] : List Digest).bagInter left) + pricing.total []
      have nothing : pricing.digestTotal (([] : List Digest).bagInter left) = 0 := by
        rw [List.nil_bagInter]
        rfl
      rw [nothing, add_zero]
  | cons message rest ih =>
      obtain ⟨digest, others, isDigest, isOthers, sameHashes⟩ := mapM_cons_some hashed
      obtain ⟨copy, behind, isCopy, isBehind, sameCopies⟩ := mapM_cons_some copied
      subst sameHashes
      subst sameCopies
      rw [List.zip_cons_cons, List.zip_cons_cons, uncreditedTokens] at added
      rw [List.zip_cons_cons, uncredited, Pricing.total_cons]
      by_cases credited : digest ∈ left
      · rw [if_pos credited] at added
        rw [if_pos credited, List.cons_bagInter_of_mem _ credited, Pricing.digestTotal_cons,
          Pricing.digestCost_eq isDigest]
        have rest_le := ih isOthers isBehind added
        linarith
      · rw [if_neg credited] at added
        rw [if_neg credited, List.cons_bagInter_of_not_mem _ credited]
        cases isOwn : own message with
        | true =>
            rw [isOwn] at added
            have rest_le := ih isOthers isBehind added
            rw [List.filter_cons_of_pos isOwn, Pricing.total_cons]
            linarith
        | false =>
            rw [isOwn] at added
            obtain ⟨tokens, isTokens, added⟩ := Option.bind_eq_some_iff.mp added
            have rest_le := ih isOthers isBehind added
            have here := pricing.estimated message copy tokens isCopy isTokens
            rw [List.filter_cons_of_neg (by rw [isOwn]; exact Bool.false_ne_true)]
            linarith

variable (pricing) in
theorem addedTokens_le {messages : List (Message N)} {copies : List (EstimationMessage N)}
    {sum result : N} (copied : estimateMessages platform messages = some copies)
    (added : addedTokens platform sum copies = some result) :
    sum + pricing.total messages ≤ result := by
  induction messages generalizing copies sum with
  | nil =>
      cases copied
      cases added
      exact le_of_eq (add_zero _)
  | cons message rest ih =>
      obtain ⟨copy, behind, isCopy, isBehind, same⟩ := mapM_cons_some copied
      subst same
      rw [addedTokens] at added
      obtain ⟨tokens, isTokens, added⟩ := Option.bind_eq_some_iff.mp added
      have rest_le := ih isBehind added
      have here := pricing.estimated message copy tokens isCopy isTokens
      rw [Pricing.total_cons]
      linarith

/-! ### Runs -/

/-- A record of the history with the request that produced it. -/
structure Entry (N : Type) where
  record : NativeCanonicalRecord N
  request : Option (Request N)

/-- The requests a session has sent and what its history holds now. -/
structure Log (N : Type) where
  requests : List (Request N)
  history : List (Entry N)

structure World (N Digest : Type) where
  tracker : UsageTracker N Digest
  logs : JsString → Log N

/-- One request of a session: the records read before it, its configuration and its messages.
`skipped` counts the records of the history that the read left out. -/
structure Call (N : Type) where
  session : JsString
  skipped : Nat
  config : Config N
  messages : List (Message N)
  tokens : Option N

def Call.entries (call : Call N) (world : World N Digest) : List (Entry N) :=
  (world.logs call.session).history.drop call.skipped

variable (platform) in
def Call.prepared (call : Call N) (world : World N Digest) : Prepared N Digest :=
  prepare platform world.tracker call.session ((call.entries world).map (·.record)) call.config

def Call.request (call : Call N) : Request N :=
  { config := call.config
    messages := call.messages }

/-- Reported usage is the size of the request that produced the record and of its output. -/
def Accountable (pricing : Pricing platform) (requests : List (Request N)) (entry : Entry N) : Prop :=
  ∀ total, usage entry.record = some total → ∃ request ∈ requests, entry.request = some request ∧
    total = pricing.size request + pricing.output entry.record.raw

/-- A recorded size comes from `estimate` or `bound` of the same list, or is no smaller than
what the provider counts. -/
def Derived (pricing : Pricing platform) (world : World N Digest) (call : Call N) : Prop :=
  ∀ tokens, call.tokens = some tokens →
    estimate platform (call.prepared platform world) call.messages = some (some tokens) ∨
      (∃ fixedTokens, pricing.fixed call.config ≤ fixedTokens ∧
        bound platform (call.prepared platform world) call.messages fixedTokens = some (some tokens)) ∨
      pricing.size call.request ≤ tokens

inductive Event (N : Type)
  | append (session : JsString) (entry : Entry N)
  | revert (session : JsString) (kept : Nat)
  | request (call : Call N)
  | delete (session : JsString)

def World.log (world : World N Digest) (session : JsString) (log : Log N) : World N Digest :=
  { world with logs := Function.update world.logs session log }

def World.append (world : World N Digest) (session : JsString) (entry : Entry N) : World N Digest :=
  world.log session
    { world.logs session with history := (world.logs session).history ++ [entry] }

def World.revert (world : World N Digest) (session : JsString) (kept : Nat) : World N Digest :=
  world.log session
    { world.logs session with history := (world.logs session).history.take kept }

def World.send (world : World N Digest) (call : Call N) (tracker : UsageTracker N Digest) :
    World N Digest :=
  { world.log call.session
      { world.logs call.session with
        requests := (world.logs call.session).requests ++ [call.request] } with
    tracker := tracker }

/-- One step of the history of a session, or of the tracker. -/
inductive Step (pricing : Pricing platform) : World N Digest → Event N → World N Digest → Prop
  | append (world : World N Digest) (session : JsString) (entry : Entry N)
      (accountable : Accountable pricing (world.logs session).requests entry) :
      Step pricing world (.append session entry) (world.append session entry)
  | revert (world : World N Digest) (session : JsString) (kept : Nat) :
      Step pricing world (.revert session kept) (world.revert session kept)
  | request (world : World N Digest) (call : Call N) (tracker : UsageTracker N Digest)
      (derived : Derived pricing world call)
      (remembered : remember platform (call.prepared platform world) world.tracker call.session
        call.messages call.tokens = some tracker) :
      Step pricing world (.request call) (world.send call tracker)
  | delete (world : World N Digest) (session : JsString) :
      Step pricing world (.delete session)
        { world with tracker := world.tracker.delete session }

/-- Whether the figure for a list takes the latest assistant as the answer to the remembered
request. -/
def TakenAsAnswer (prepared : Prepared N Digest) (previous : State N Digest)
    (messages : List (Message N)) (hashes : List Digest) : Prop :=
  answered prepared previous = true ∨
    ∃ latest index, prepared.latest = some latest ∧ latestMatches latest messages = [index] ∧
      hashes.take index = previous.messages

variable (platform) in
/-- Where the latest assistant is taken as the answer to the remembered request, the request
that it does answer had that configuration, if it is still in use, and every message that gets
credit. Only one message without credit is the assistant's own output. -/
def Attributed (world : World N Digest) (call : Call N) : Prop :=
  ∀ previous entry request hashes,
    (call.prepared platform world).previous = some previous →
    ((call.entries world).reverse.find? fun entry => entry.record.raw.type = .assistant) = some entry →
    entry.request = some request →
    messageHashes platform call.messages = some hashes →
    TakenAsAnswer (call.prepared platform world) previous call.messages hashes →
      ((call.prepared platform world).config = some previous.config →
        platform.fingerprint request.config.payload = some previous.config) ∧
      (hashes.bagInter previous.messages).Subperm
        (request.messages.filterMap (messageHash platform)) ∧
      ((uncredited previous.messages (hashes.zip call.messages)).filter
        (ownOutput platform (call.prepared platform world) previous)).length ≤ 1

variable (platform) in
def Covered (world : World N Digest) : Event N → Prop
  | .request call => Attributed platform world call
  | _ => True

/-! ### What a remembered state promises -/

/-- The recorded size covers the remembered request, and the usage of the anchor's assistant
covers the anchor's prefix. -/
structure Sound (pricing : Pricing platform) (state : State N Digest) : Prop where
  tokens : ∀ tokens, state.tokens = some tokens → ∀ config : Config N,
    platform.fingerprint config.payload = some state.config →
      pricing.fixed config + pricing.digestTotal state.messages ≤ tokens
  anchor : ∀ anchor, state.anchor = some anchor → ∀ (raw : NativeHistoryMessage N) total,
    platform.fingerprint raw.payload = some anchor.raw → reported raw = some total →
    ∀ (config : Config N) (before : List (Message N)),
      platform.fingerprint config.payload = some state.config →
      messageHashes platform before = some anchor.before →
        pricing.fixed config + pricing.total before + pricing.output raw ≤ total

structure Holds (pricing : Pricing platform) (world : World N Digest) : Prop where
  sound : ∀ entry ∈ world.tracker.sessions, Sound pricing entry.2
  accountable : ∀ session, ∀ entry ∈ (world.logs session).history,
    Accountable pricing (world.logs session).requests entry

theorem Holds.previous {world : World N Digest} (holds : Holds pricing world) {call : Call N}
    {previous : State N Digest} (remembered : (call.prepared platform world).previous = some previous) :
    Sound pricing previous := by
  obtain ⟨entry, found, same⟩ := Option.map_eq_some_iff.mp remembered
  rw [← same]
  exact holds.sound entry (List.mem_of_find?_eq_some found)

theorem Call.latest_eq (call : Call N) (world : World N Digest) :
    (call.prepared platform world).latest =
      ((call.entries world).reverse.find? fun entry => entry.record.raw.type = .assistant).map
        (·.record) := by
  change ((call.entries world).map (·.record)).reverse.find? _ = _
  rw [← List.map_reverse, List.find?_map]
  rfl

/-- The latest assistant of a call with its usage. -/
theorem Holds.latest {world : World N Digest} (holds : Holds pricing world) {call : Call N}
    {latest : NativeCanonicalRecord N} {total : N}
    (isLatest : (call.prepared platform world).latest = some latest)
    (isTotal : (call.prepared platform world).total = some total) :
    reported latest.raw = some total ∧ ∃ entry request,
      ((call.entries world).reverse.find? fun entry => entry.record.raw.type = .assistant) = some entry ∧
        entry.request = some request ∧
          total = pricing.size request + pricing.output latest.raw := by
  have used : usage latest = some total := by
    have computed : (call.prepared platform world).total =
        (call.prepared platform world).latest.bind usage := rfl
    rw [computed, isLatest] at isTotal
    exact isTotal
  rw [Call.latest_eq] at isLatest
  obtain ⟨entry, found, same⟩ := Option.map_eq_some_iff.mp isLatest
  have inHistory : entry ∈ (world.logs call.session).history :=
    List.mem_of_mem_drop (List.mem_reverse.mp (List.mem_of_find?_eq_some found))
  have counted := holds.accountable call.session entry inHistory
  rw [Accountable, same] at counted
  obtain ⟨request, _, produced, size⟩ := counted total used
  constructor
  · unfold usage at used
    split at used
    · exact used
    · cases used
  · exact ⟨entry, request, found, produced, size⟩

/-! ### Exact sizes -/

/-- What `estimate` has checked and added up. -/
structure Estimated (platform : Platform N Digest) (prepared : Prepared N Digest)
    (messages : List (Message N)) (size : N) (previous : State N Digest)
    (latest : NativeCanonicalRecord N) (total : N) (hashes : List Digest) (index : Nat) : Prop where
  isPrevious : prepared.previous = some previous
  isLatest : prepared.latest = some latest
  isTotal : prepared.total = some total
  sameConfig : prepared.config = some previous.config
  isHashes : messageHashes platform messages = some hashes
  matched : latestMatches latest messages = [index]
  continued : continues platform prepared previous latest messages hashes index = true
  added : ∃ copies added, estimateMessages platform (messages.drop (index + 1)) = some copies ∧
    addedTokens platform ((0 : Nat) : N) copies = some added ∧ size = total + added

theorem estimated_of_estimate {prepared : Prepared N Digest} {messages : List (Message N)} {size : N}
    (measured : estimate platform prepared messages = some (some size)) :
    ∃ previous latest total hashes index,
      Estimated platform prepared messages size previous latest total hashes index := by
  unfold estimate at measured
  cases isPrevious : prepared.previous with
  | none =>
      simp only [isPrevious] at measured
      cases measured
  | some previous =>
  cases isLatest : prepared.latest with
  | none =>
      simp only [isPrevious, isLatest] at measured
      cases measured
  | some latest =>
  cases isTotal : prepared.total with
  | none =>
      simp only [isPrevious, isLatest, isTotal] at measured
      cases measured
  | some total =>
  simp only [isPrevious, isLatest, isTotal] at measured
  split at measured
  · rename_i checked
    rw [eligible, Bool.and_eq_true, Bool.and_eq_true, Bool.and_eq_true] at checked
    split at measured
    · cases measured
    · rename_i hashes isHashes
      split at measured
      · rename_i index matched
        split at measured
        · rename_i continued
          obtain ⟨copies, isCopies, measured⟩ := Option.bind_eq_some_iff.mp measured
          obtain ⟨added, isAdded, measured⟩ := Option.bind_eq_some_iff.mp measured
          have same : size = total + added := by
            cases measured
            rfl
          exact ⟨previous, latest, total, hashes, index,
            { isPrevious := isPrevious
              isLatest := isLatest
              isTotal := isTotal
              sameConfig := of_decide_eq_true checked.1.1.1
              isHashes := isHashes
              matched := matched
              continued := continued
              added := ⟨copies, added, isCopies, isAdded, same⟩ }⟩
        · cases measured
      · cases measured
  · cases measured

theorem bagInter_append_self (given others : List Digest) :
    (given ++ others).bagInter given = given := by
  induction given with
  | nil => rw [List.bagInter_nil]
  | cons digest rest ih =>
      rw [List.cons_append, List.cons_bagInter_of_mem _ List.mem_cons_self, List.erase_cons_head, ih]

/-- The total an exact size starts from covers the list up to the latest assistant and the
assistant's output. -/
theorem Estimated.prefix_le {world : World N Digest} (holds : Holds pricing world) {call : Call N}
    (attributed : Attributed platform world call) {size total : N} {previous : State N Digest}
    {latest : NativeCanonicalRecord N} {hashes : List Digest} {index : Nat}
    (made : Estimated platform (call.prepared platform world) call.messages size previous latest total
      hashes index) :
    pricing.fixed call.config + pricing.total (call.messages.take index) +
      pricing.output latest.raw ≤ total := by
  obtain ⟨isReported, entry, request, found, produced, counted⟩ := holds.latest made.isLatest made.isTotal
  have hashedBefore := mapM_take made.isHashes index
  have asAnswer (same : hashes.take index = previous.messages) :
      pricing.fixed call.config + pricing.total (call.messages.take index) +
        pricing.output latest.raw ≤ total := by
    obtain ⟨configured, contained, _⟩ := attributed previous entry request hashes made.isPrevious found
      produced made.isHashes (Or.inr ⟨latest, index, made.isLatest, made.matched, same⟩)
    have fixed : pricing.fixed request.config = pricing.fixed call.config :=
      pricing.fixed_congr _ _ _ (configured made.sameConfig) made.sameConfig
    have whole : hashes.bagInter previous.messages = previous.messages := by
      rw [← List.take_append_drop index hashes, same]
      exact bagInter_append_self _ _
    rw [whole, ← same] at contained
    have before : pricing.total (call.messages.take index) ≤ pricing.total request.messages := by
      rw [← Pricing.digestTotal_hashes hashedBefore]
      exact (Pricing.digestTotal_le contained).trans (Pricing.digestTotal_filterMap_le _)
    rw [counted, Pricing.size, fixed]
    linarith
  have continued := made.continued
  unfold continues at continued
  dsimp only at continued
  split at continued
  · rename_i anchor isAnchor
    split at continued
    · rw [Bool.and_eq_true, Bool.and_eq_true, Bool.and_eq_true, Bool.and_eq_true] at continued
      have sameRaw : some anchor.raw = (call.prepared platform world).raw :=
        of_decide_eq_true continued.1.1.1.1
      have sameBefore : hashes.take index = anchor.before := of_decide_eq_true continued.1.1.2
      have hashedRaw : platform.fingerprint latest.raw.payload = some anchor.raw := by
        have computed : (call.prepared platform world).raw =
            (call.prepared platform world).latest.bind
              fun latest => platform.fingerprint latest.raw.payload := rfl
        rw [sameRaw, computed, made.isLatest]
        rfl
      rw [sameBefore] at hashedBefore
      exact (holds.previous made.isPrevious).anchor anchor isAnchor latest.raw total hashedRaw isReported
        call.config _ made.sameConfig hashedBefore
    · rw [Bool.and_eq_true] at continued
      exact asAnswer (of_decide_eq_true continued.1)
  · rw [Bool.and_eq_true] at continued
    exact asAnswer (of_decide_eq_true continued.1)

variable (pricing) in
/-- The message at the latest assistant's place is its output. -/
theorem Estimated.own_le {prepared : Prepared N Digest} {messages : List (Message N)} {size total : N}
    {previous : State N Digest} {latest : NativeCanonicalRecord N} {hashes : List Digest} {index : Nat}
    (made : Estimated platform prepared messages size previous latest total hashes index) :
    ∃ message, messages[index]? = some message ∧ pricing.cost message ≤ pricing.output latest.raw := by
  have lowered : ((messages[index]?).any fun message =>
      matchesAssistant platform latest message prepared.model.providerID) = true := by
    have continued := made.continued
    unfold continues at continued
    dsimp only at continued
    split at continued
    · split at continued
      · exact (Bool.and_eq_true _ _ ▸ continued).2
      · exact (Bool.and_eq_true _ _ ▸ continued).2
    · exact (Bool.and_eq_true _ _ ▸ continued).2
  cases present : messages[index]? with
  | none =>
      rw [present] at lowered
      cases lowered
  | some message =>
      rw [present] at lowered
      exact ⟨message, rfl, pricing.lowered latest message _ lowered⟩

theorem estimate_le {world : World N Digest} (holds : Holds pricing world) {call : Call N}
    (attributed : Attributed platform world call) {size : N}
    (measured : estimate platform (call.prepared platform world) call.messages = some (some size)) :
    pricing.size call.request ≤ size := by
  obtain ⟨previous, latest, total, hashes, index, made⟩ := estimated_of_estimate measured
  have before := made.prefix_le holds attributed
  obtain ⟨message, present, own⟩ := made.own_le pricing
  obtain ⟨copies, added, isCopies, isAdded, same⟩ := made.added
  have behind := addedTokens_le pricing isCopies isAdded
  have split : pricing.total call.messages = pricing.total (call.messages.take index) +
      (pricing.cost message + pricing.total (call.messages.drop (index + 1))) := by
    obtain ⟨inside, isMessage⟩ := List.getElem?_eq_some_iff.mp present
    rw [← Pricing.total_cons, ← Pricing.total_append, ← isMessage, List.getElem_cons_drop,
      List.take_append_drop]
  change pricing.fixed call.config + pricing.total call.messages ≤ size
  rw [split, same]
  rw [Nat.cast_zero, zero_add] at behind
  linarith

/-! ### Bounds -/

/-- What `bound` has checked and added up. -/
structure Bounded (platform : Platform N Digest) (prepared : Prepared N Digest)
    (messages : List (Message N)) (added : N) (previous : State N Digest) (hashes : List Digest) :
    Prop where
  isPrevious : prepared.previous = some previous
  isHashes : messageHashes platform messages = some hashes
  isAdded : ∃ copies, estimateMessages platform messages = some copies ∧
    uncreditedTokens platform (ownOutput platform prepared previous) ((0 : Nat) : N)
      previous.messages (hashes.zip (messages.zip copies)) = some added

/-- A bound starts from the usage of an answer, or from the recorded size under the same
configuration. -/
theorem bounded_of_bound {prepared : Prepared N Digest} {messages : List (Message N)}
    {fixedTokens size : N} (defined : bound platform prepared messages fixedTokens = some (some size)) :
    ∃ previous hashes added, Bounded platform prepared messages added previous hashes ∧
      ((answered prepared previous = true ∧ ∃ total, prepared.total = some total ∧
          size = total + added + if prepared.config = some previous.config then 0 else fixedTokens) ∨
        (answered prepared previous = false ∧ prepared.config = some previous.config ∧
          ∃ tokens, previous.tokens = some tokens ∧ size = tokens + added)) := by
  unfold bound at defined
  split at defined
  · cases defined
  rename_i previous isPrevious
  dsimp only at defined
  split at defined
  · cases defined
  rename_i available
  split at defined
  · cases defined
  rename_i hashes isHashes
  obtain ⟨copies, isCopies, defined⟩ := Option.bind_eq_some_iff.mp defined
  obtain ⟨added, isAdded, defined⟩ := Option.bind_eq_some_iff.mp defined
  have made : Bounded platform prepared messages added previous hashes :=
    { isPrevious := isPrevious
      isHashes := isHashes
      isAdded := ⟨copies, isCopies, isAdded⟩ }
  have same := Option.some.inj defined
  cases isAnswered : answered prepared previous with
  | true =>
      rw [isAnswered, if_pos rfl] at same
      obtain ⟨total, isTotal, same⟩ := Option.map_eq_some_iff.mp same
      rw [Nat.cast_zero] at same
      refine ⟨previous, hashes, added, made, Or.inl ⟨isAnswered, total, isTotal, ?_⟩⟩
      rw [← same]
      by_cases sameConfig : prepared.config = some previous.config
      · rw [if_pos sameConfig, if_pos (decide_eq_true sameConfig)]
      · rw [if_neg sameConfig, if_neg (by simpa using sameConfig)]
  | false =>
      rw [isAnswered, if_neg Bool.false_ne_true] at same
      obtain ⟨tokens, isTokens, same⟩ := Option.map_eq_some_iff.mp same
      rw [isAnswered, isTokens] at available
      have sameConfig : prepared.config = some previous.config := by
        simpa using available
      exact ⟨previous, hashes, added, made, Or.inr ⟨isAnswered, sameConfig, tokens, isTokens, same.symm⟩⟩

variable (pricing) in
/-- A list is covered by the estimates of what has no credit, the credited digests and the
assistant's own output. -/
theorem Bounded.total_le {prepared : Prepared N Digest} {messages : List (Message N)} {added : N}
    {previous : State N Digest} {hashes : List Digest}
    (made : Bounded platform prepared messages added previous hashes) :
    pricing.total messages ≤ added + pricing.digestTotal (hashes.bagInter previous.messages) +
      pricing.total ((uncredited previous.messages (hashes.zip messages)).filter
        (ownOutput platform prepared previous)) := by
  obtain ⟨copies, isCopies, isAdded⟩ := made.isAdded
  have covered := uncreditedTokens_le pricing made.isHashes isCopies isAdded
  rw [Nat.cast_zero, zero_add] at covered
  exact covered

variable (pricing) in
/-- At most one message is the assistant's own output, so together they cost no more than it. -/
theorem own_total_le {prepared : Prepared N Digest} {previous : State N Digest}
    {latest : NativeCanonicalRecord N} (isLatest : prepared.latest = some latest)
    {messages : List (Message N)}
    (once : (messages.filter (ownOutput platform prepared previous)).length ≤ 1) :
    pricing.total (messages.filter (ownOutput platform prepared previous)) ≤
      pricing.output latest.raw := by
  match filtered : messages.filter (ownOutput platform prepared previous) with
  | [] => exact pricing.output_nonneg latest.raw
  | [message] =>
      have own : ownOutput platform prepared previous message = true := by
        have inside : message ∈ messages.filter (ownOutput platform prepared previous) := by
          rw [filtered]
          exact List.mem_singleton_self message
        exact (List.mem_filter.mp inside).2
      rw [ownOutput, isLatest, Option.any_some, Bool.and_eq_true, Bool.and_eq_true] at own
      rw [Pricing.total_cons]
      have nothing : pricing.total ([] : List (Message N)) = 0 := rfl
      rw [nothing, add_zero]
      exact pricing.lowered latest message _ own.2.2
  | _ :: _ :: _ =>
      rw [filtered, List.length_cons, List.length_cons] at once
      omega

theorem bound_le {world : World N Digest} (holds : Holds pricing world) {call : Call N}
    (attributed : Attributed platform world call) {fixedTokens size : N}
    (covers : pricing.fixed call.config ≤ fixedTokens)
    (defined : bound platform (call.prepared platform world) call.messages fixedTokens =
      some (some size)) :
    pricing.size call.request ≤ size := by
  obtain ⟨previous, hashes, added, made, origin⟩ := bounded_of_bound defined
  have covered := made.total_le pricing
  change pricing.fixed call.config + pricing.total call.messages ≤ size
  rcases origin with ⟨isAnswered, total, isTotal, same⟩ | ⟨unanswered, sameConfig, tokens, isTokens, same⟩
  · obtain ⟨latest, isLatest⟩ : ∃ latest, (call.prepared platform world).latest = some latest := by
      cases isLatest : (call.prepared platform world).latest with
      | none =>
          rw [answered, isLatest] at isAnswered
          cases isAnswered
      | some latest => exact ⟨latest, rfl⟩
    obtain ⟨_, entry, request, found, produced, counted⟩ := holds.latest isLatest isTotal
    obtain ⟨configured, contained, once⟩ := attributed previous entry request hashes made.isPrevious
      found produced made.isHashes (Or.inl isAnswered)
    have own := own_total_le pricing isLatest once
    have credited : pricing.digestTotal (hashes.bagInter previous.messages) ≤
        pricing.total request.messages :=
      (Pricing.digestTotal_le contained).trans (Pricing.digestTotal_filterMap_le _)
    have requestFixed := pricing.fixed_nonneg request.config
    rw [Pricing.size] at counted
    rw [same]
    by_cases sameConfig : (call.prepared platform world).config = some previous.config
    · have fixed : pricing.fixed request.config = pricing.fixed call.config :=
        pricing.fixed_congr _ _ _ (configured sameConfig) sameConfig
      rw [if_pos sameConfig]
      linarith
    · rw [if_neg sameConfig]
      linarith
  · have nothing : (uncredited previous.messages (hashes.zip call.messages)).filter
        (ownOutput platform (call.prepared platform world) previous) = [] := by
      apply List.filter_eq_nil_iff.mpr
      intro message _ own
      rw [ownOutput, unanswered] at own
      cases own
    have recorded := (holds.previous made.isPrevious).tokens tokens isTokens call.config sameConfig
    have credited : (hashes.bagInter previous.messages).Subperm previous.messages := by
      apply List.subperm_iff_count.mpr
      intro digest
      rw [List.count_bagInter]
      exact min_le_right _ _
    have creditedTotal : pricing.digestTotal (hashes.bagInter previous.messages) ≤
        pricing.digestTotal previous.messages := Pricing.digestTotal_le credited
    rw [nothing] at covered
    have none_ : pricing.total ([] : List (Message N)) = 0 := rfl
    rw [none_, add_zero] at covered
    rw [same]
    linarith

/-! ### Steps -/

theorem UsageTracker.mem_set {tracker : UsageTracker N Digest} {session : JsString}
    {state : State N Digest} {entry : JsString × State N Digest}
    (inside : entry ∈ (tracker.set session state).sessions) :
    entry ∈ tracker.sessions ∨ entry = (session, state) := by
  have among : entry ∈ (tracker.delete session).sessions ++ [(session, state)] := by
    unfold UsageTracker.set at inside
    dsimp only at inside
    split at inside
    · exact List.mem_of_mem_drop inside
    · exact inside
  rcases List.mem_append.mp among with old | new
  · exact Or.inl (List.mem_filter.mp old).1
  · exact Or.inr (List.mem_singleton.mp new)

/-- The state a remembered request leaves. -/
theorem remember_cases {prepared : Prepared N Digest} {tracker after : UsageTracker N Digest}
    {session : JsString} {messages : List (Message N)} {tokens : Option N}
    (remembered : remember platform prepared tracker session messages tokens = some after) :
    after = tracker.delete session ∨ ∃ state hashes, after = tracker.set session state ∧
      prepared.config = some state.config ∧ messageHashes platform messages = some hashes ∧
      state.messages = hashes ∧ (∀ kept, state.tokens = some kept → tokens = some kept) ∧
      ∀ anchor, state.anchor = some anchor → ∃ size latest index,
        estimate platform prepared messages = some (some size) ∧ prepared.latest = some latest ∧
          (latestMatches latest messages).head? = some index ∧ prepared.raw = some anchor.raw ∧
            anchor.before = hashes.take index := by
  unfold remember at remembered
  split at remembered
  · rename_i config hashes isConfig isHashes
    obtain ⟨estimated, isEstimated, remembered⟩ := Option.bind_eq_some_iff.mp remembered
    have same := Option.some.inj remembered
    refine Or.inr ⟨_, hashes, same.symm, isConfig, isHashes, rfl, ?_, ?_⟩
    · intro kept isKept
      exact Option.mem_def.mp (Option.mem_filter_iff.mp isKept).1
    · intro anchor isAnchor
      obtain ⟨index, isIndex, isAnchor⟩ := Option.bind_eq_some_iff.mp isAnchor
      obtain ⟨id, _, isAnchor⟩ := Option.bind_eq_some_iff.mp isAnchor
      obtain ⟨raw, isRaw, isAnchor⟩ := Option.bind_eq_some_iff.mp isAnchor
      obtain ⟨message, _, isAnchor⟩ := Option.bind_eq_some_iff.mp isAnchor
      have same := Option.some.inj isAnchor
      split at isIndex
      · rename_i exact_
        obtain ⟨size, isSize⟩ := Option.isSome_iff_exists.mp exact_
        obtain ⟨latest, isLatest, first⟩ := Option.bind_eq_some_iff.mp isIndex
        rw [isSize] at isEstimated
        rw [← same]
        exact ⟨size, latest, index, isEstimated, isLatest, first, isRaw, rfl⟩
      · cases isIndex
  · exact Or.inl (Option.some.inj remembered).symm

theorem derived_le {world : World N Digest} (holds : Holds pricing world) {call : Call N}
    (attributed : Attributed platform world call) (derived : Derived pricing world call) {tokens : N}
    (given : call.tokens = some tokens) : pricing.size call.request ≤ tokens := by
  rcases derived tokens given with measured | ⟨fixedTokens, covers, bounded⟩ | known
  · exact estimate_le holds attributed measured
  · exact bound_le holds attributed covers bounded
  · exact known

theorem remember_sound {world : World N Digest} (holds : Holds pricing world) {call : Call N}
    (attributed : Attributed platform world call) (derived : Derived pricing world call)
    {after : UsageTracker N Digest}
    (remembered : remember platform (call.prepared platform world) world.tracker call.session
      call.messages call.tokens = some after) :
    ∀ entry ∈ after.sessions, Sound pricing entry.2 := by
  intro entry inside
  rcases remember_cases remembered with same |
    ⟨state, hashes, same, isConfig, isHashes, sameHashes, kept, anchored⟩
  · rw [same] at inside
    exact holds.sound entry (List.mem_filter.mp inside).1
  rw [same] at inside
  rcases UsageTracker.mem_set inside with old | new
  · exact holds.sound entry old
  rw [new]
  constructor
  · intro tokens isTokens config hashed
    have fixed : pricing.fixed config = pricing.fixed call.config :=
      pricing.fixed_congr _ _ _ hashed isConfig
    have size := derived_le holds attributed derived (kept tokens isTokens)
    change pricing.fixed config + pricing.digestTotal state.messages ≤ tokens
    rw [fixed, sameHashes, Pricing.digestTotal_hashes isHashes]
    exact size
  · intro anchor isAnchor raw total hashedRaw isReported config before hashed hashedBefore
    obtain ⟨size, latest, index, measured, isLatest, first, isRaw, isBefore⟩ := anchored anchor isAnchor
    obtain ⟨previous, found, reportedTotal, others, place, made⟩ := estimated_of_estimate measured
    have sameLatest : found = latest := Option.some.inj (made.isLatest.symm.trans isLatest)
    subst sameLatest
    have samePlace : place = index := by
      rw [made.matched] at first
      exact Option.some.inj first
    subst samePlace
    have covered := made.prefix_le holds attributed
    have hashedLatest : platform.fingerprint found.raw.payload = some anchor.raw := by
      have computed : (call.prepared platform world).raw =
          (call.prepared platform world).latest.bind
            fun latest => platform.fingerprint latest.raw.payload := rfl
      rw [computed, isLatest] at isRaw
      exact isRaw
    obtain ⟨sameReport, sameOutput⟩ := pricing.answer_congr _ _ _ hashedRaw hashedLatest
    have sameTotal : total = reportedTotal := by
      rw [isReported, (holds.latest made.isLatest made.isTotal).1] at sameReport
      exact Option.some.inj sameReport
    have fixed : pricing.fixed config = pricing.fixed call.config :=
      pricing.fixed_congr _ _ _ hashed isConfig
    have sameBefore : pricing.total before = pricing.total (call.messages.take place) := by
      rw [isBefore] at hashedBefore
      exact Pricing.total_congr hashedBefore (mapM_take isHashes place)
    rw [fixed, sameBefore, sameOutput, sameTotal]
    exact covered

theorem accountable_grows {requests more : List (Request N)} {entry : Entry N}
    (accountable : Accountable pricing requests entry) :
    Accountable pricing (requests ++ more) entry := by
  intro total used
  obtain ⟨request, known, produced, size⟩ := accountable total used
  exact ⟨request, List.mem_append_left _ known, produced, size⟩

theorem accountable_log {world : World N Digest} (holds : Holds pricing world) (session : JsString)
    {log : Log N} (kept : ∀ entry ∈ log.history, Accountable pricing log.requests entry) :
    ∀ other, ∀ entry ∈ ((world.log session log).logs other).history,
      Accountable pricing ((world.log session log).logs other).requests entry := by
  intro other
  change ∀ entry ∈ (Function.update world.logs session log other).history,
    Accountable pricing (Function.update world.logs session log other).requests entry
  by_cases same : other = session
  · rw [same, Function.update_self]
    exact kept
  · rw [Function.update_of_ne same]
    exact holds.accountable other

/-- Every covered step keeps the promises. -/
theorem Step.holds {before after : World N Digest} {event : Event N}
    (step : Step pricing before event after) (covered : Covered platform before event)
    (holds : Holds pricing before) : Holds pricing after := by
  cases step with
  | append session entry accountable =>
      refine ⟨holds.sound, accountable_log holds session ?_⟩
      intro found inside
      rcases List.mem_append.mp inside with old | new
      · exact holds.accountable session found old
      · rw [List.mem_singleton.mp new]
        exact accountable
  | revert session kept =>
      refine ⟨holds.sound, accountable_log holds session ?_⟩
      intro found inside
      exact holds.accountable session found (List.mem_of_mem_take inside)
  | request call tracker derived remembered =>
      refine ⟨remember_sound holds covered derived remembered, accountable_log holds call.session ?_⟩
      intro found inside
      exact accountable_grows (holds.accountable call.session found inside)
  | delete session =>
      constructor
      · intro entry inside
        exact holds.sound entry (List.mem_filter.mp inside).1
      · exact holds.accountable

/-- No run whose requests are attributed to what the latest assistant answers bounds a list
below its size. -/
theorem bound_is_upper_bound {start world : World N Digest} (empty : start.tracker.sessions = [])
    (accountable : ∀ session, ∀ entry ∈ (start.logs session).history,
      Accountable pricing (start.logs session).requests entry)
    (run : Reaches (Step pricing) (Covered platform) start world) {call : Call N}
    (attributed : Attributed platform world call) {fixedTokens size : N}
    (covers : pricing.fixed call.config ≤ fixedTokens)
    (defined : bound platform (call.prepared platform world) call.messages fixedTokens =
      some (some size)) :
    pricing.size call.request ≤ size := by
  have holds : Holds pricing world := by
    apply run.invariant
    · intro before event after holds step covered
      exact step.holds covered holds
    · constructor
      · rw [empty]
        intro entry inside
        cases inside
      · exact accountable
  exact bound_le holds attributed covers defined

end Bound

/-! ### A bound below the size of its request -/

/-- What tells the sample's values apart. -/
structure SampleDigest where
  name : Option JsString
  reported : Option Int
deriving DecidableEq

def sampleDigest : Payload Int → SampleDigest
  | .string value =>
      { name := some value
        reported := none }
  | .object ((_, .string id) :: (_, .string type) :: rest) =>
      { name := some id
        reported :=
          if type = NativeMessageType.assistant.name then
            reported
              { id := id
                type := .assistant
                rest := rest }
          else none }
  | _ =>
      { name := none
        reported := none }

def samplePlatform : Platform Int SampleDigest :=
  { fingerprint := fun value => some (sampleDigest value)
    noAssistant :=
      { name := none
        reported := some 0 }
    parse := fun _ => none
    estimationValue := fun value => some value
    estimateNativeTokens := fun _ => some 10
    isSafeInteger := fun _ => true }

private theorem assistant_of_name {type : NativeMessageType}
    (named : type.name = NativeMessageType.assistant.name) : type = .assistant := by
  cases type with
  | assistant => rfl
  | _ => exact absurd named (by decide +kernel)

private theorem sampleDigest_reported (raw : NativeHistoryMessage Int) :
    sampleDigest raw.payload =
      { name := some raw.id
        reported := reported raw } := by
  obtain ⟨id, type, rest⟩ := raw
  by_cases assistant : type = .assistant
  · subst assistant
    exact congrArg (SampleDigest.mk (some id)) (if_pos rfl)
  · have silent : reported { id := id, type := type, rest := rest } = (none : Option Int) :=
      if_pos assistant
    rw [silent]
    exact congrArg (SampleDigest.mk (some id)) (if_neg fun named => assistant (assistant_of_name named))

/-- Five tokens of system prompt and ten for every message. -/
def samplePricing : Pricing samplePlatform :=
  { fixed := fun _ => 5
    cost := fun _ => 10
    output := fun _ => 10
    fixed_nonneg := fun _ => by decide
    cost_nonneg := fun _ => by decide
    output_nonneg := fun _ => by decide
    fixed_congr := fun _ _ _ _ _ => rfl
    cost_congr := fun _ _ _ _ _ => rfl
    answer_congr := by
      intro one other digest oneHashed otherHashed
      have same : sampleDigest one.payload = sampleDigest other.payload :=
        Option.some.inj (oneHashed.trans otherHashed.symm)
      rw [sampleDigest_reported, sampleDigest_reported] at same
      exact ⟨(SampleDigest.mk.inj same).2, rfl⟩
    lowered := fun _ _ _ _ => le_refl _
    estimated := by
      intro message copy tokens _ isTokens
      cases isTokens
      decide }

def sampleModel : Model :=
  { id := ofString "m"
    providerID := ofString "p"
    variant := none }

def sampleConfig : Config Int :=
  { model := sampleModel
    system := .undefined
    tools := .undefined
    options := .undefined }

def sampleText : Payload Int :=
  object [("type", .string (ofString "text")), ("text", .string (ofString "x"))]

def textMessage (id : String) (role : Cursor.Role) : Message Int :=
  { id := some (ofString id)
    role := role
    content := [sampleText]
    metadata := .undefined
    providerMetadata := .undefined
    native := .undefined }

def userEntry (id : String) : Entry Int :=
  { record :=
      { raw :=
          { id := ofString id
            type := .user
            rest := [] }
        complete := true }
    request := none }

/-- An assistant that used `input` tokens and ten for its output. -/
def assistantEntry (id : String) (input : Int) (messages : List (Message Int)) : Entry Int :=
  { record :=
      { raw :=
          { id := ofString id
            type := .assistant
            rest := namedFields
              [("time", object [("completed", .number 1)]), ("model", sampleModel.payload),
                ("content", .array [sampleText]),
                ("tokens", object
                  [("input", .number input), ("output", .number 10), ("reasoning", .number 0),
                    ("cache", object [("read", .number 0), ("write", .number 0)])])] }
        complete := true }
    request := some
      { config := sampleConfig
        messages := messages } }

def sampleCall (messages : List (Message Int)) : Call Int :=
  { session := []
    skipped := 0
    config := sampleConfig
    messages := messages
    tokens := none }

abbrev SampleWorld := World Int SampleDigest

def remembering (world : SampleWorld) (messages : List (Message Int)) : SampleWorld :=
  world.send (sampleCall messages)
    ((remember samplePlatform ((sampleCall messages).prepared samplePlatform world) world.tracker []
      messages none).getD world.tracker)

def firstMessages : List (Message Int) := [textMessage "u1" .user]

def secondMessages : List (Message Int) :=
  firstMessages ++ [textMessage "a1" .assistant, textMessage "u2" .user]

def thirdMessages : List (Message Int) :=
  secondMessages ++ [textMessage "a2" .assistant, textMessage "u3" .user]

def emptyWorld : SampleWorld :=
  { tracker :=
      { sessions := []
        capacity := 64 }
    logs := fun _ =>
      { requests := []
        history := [] } }

/-- The first request of the session. -/
def askedWorld : SampleWorld := remembering (emptyWorld.append [] (userEntry "u1")) firstMessages

/-- Its answer and a second prompt. -/
def answeredWorld : SampleWorld :=
  (askedWorld.append [] (assistantEntry "a1" 15 firstMessages)).append [] (userEntry "u2")

/-- Two more requests of which the first is answered. -/
def continuedWorld : SampleWorld :=
  remembering
    (((remembering answeredWorld secondMessages).append []
      (assistantEntry "a2" 35 secondMessages)).append [] (userEntry "u3")) thirdMessages

/-- The second answer and what follows it are reverted. -/
def revertedWorld : SampleWorld := continuedWorld.revert [] 3

private theorem userEntry_accountable (requests : List (Request Int)) (id : String) :
    Accountable samplePricing requests (userEntry id) := by
  intro total used
  cases used

private theorem assistantEntry_accountable {requests : List (Request Int)} {id : String} {input : Int}
    {messages : List (Message Int)}
    (used : usage (assistantEntry id input messages).record = some (5 + 10 * (messages.length : Int) + 10))
    (sent : requests.getLast? = some
      { config := sampleConfig
        messages := messages }) :
    Accountable samplePricing requests (assistantEntry id input messages) := by
  intro total isTotal
  refine ⟨_, List.mem_of_getLast? sent, rfl, ?_⟩
  have size : samplePricing.total messages = 10 * messages.length := by
    change (messages.map fun _ => (10 : Int)).sum = 10 * messages.length
    rw [List.map_const', List.sum_replicate, nsmul_eq_mul, mul_comm]
  rw [used] at isTotal
  change total = 5 + samplePricing.total messages + 10
  rw [size]
  exact (Option.some.inj isTotal).symm

private theorem remembering_step (world : SampleWorld) (messages : List (Message Int))
    (remembered : (remember samplePlatform ((sampleCall messages).prepared samplePlatform world)
      world.tracker [] messages none).isSome = true) :
    Step samplePricing world (.request (sampleCall messages)) (remembering world messages) := by
  apply Step.request
  · intro tokens given
    cases given
  · obtain ⟨tracker, same⟩ := Option.isSome_iff_exists.mp remembered
    have given : (remember samplePlatform ((sampleCall messages).prepared samplePlatform world)
        world.tracker [] messages none).getD world.tracker = tracker := by
      rw [same]
      rfl
    rw [given]
    exact same

private theorem answered_reached {allowed : SampleWorld → Event Int → Prop}
    (free : ∀ world session entry, allowed world (.append session entry))
    (first : allowed (emptyWorld.append [] (userEntry "u1")) (.request (sampleCall firstMessages))) :
    Reaches (Step samplePricing) allowed emptyWorld answeredWorld := by
  apply Reaches.snoc _ _ (Step.append _ [] (userEntry "u2") (userEntry_accountable _ _)) (free _ _ _)
  apply Reaches.snoc _ _ (Step.append _ [] (assistantEntry "a1" 15 firstMessages) _) (free _ _ _)
  · apply Reaches.snoc _ _ (remembering_step _ firstMessages (by decide +kernel)) first
    exact (Reaches.refl _).snoc _ (Step.append _ [] (userEntry "u1") (userEntry_accountable _ _))
      (free _ _ _)
  · exact assistantEntry_accountable (by decide +kernel) rfl

/-- Whether a call is attributed, without a look at how the figure is taken. -/
def isAttributed (world : SampleWorld) (call : Call Int) : Bool :=
  let prepared := call.prepared samplePlatform world
  prepared.previous.all fun previous =>
    ((call.entries world).reverse.find? fun entry => entry.record.raw.type = .assistant).all fun entry =>
      entry.request.all fun request =>
        (messageHashes samplePlatform call.messages).all fun hashes =>
          samplePlatform.fingerprint request.config.payload = some previous.config &&
            decide ((hashes.bagInter previous.messages).Subperm
              (request.messages.filterMap (messageHash samplePlatform))) &&
            decide (((uncredited previous.messages (hashes.zip call.messages)).filter
              (ownOutput samplePlatform prepared previous)).length ≤ 1)

private theorem attributed_of_check {world : SampleWorld} {call : Call Int}
    (checked : isAttributed world call = true) : Attributed samplePlatform world call := by
  intro previous entry request hashes isPrevious found produced isHashes _
  unfold isAttributed at checked
  dsimp only at checked
  rw [isPrevious, Option.all_some, found, Option.all_some, produced, Option.all_some, isHashes,
    Option.all_some, Bool.and_eq_true, Bool.and_eq_true] at checked
  exact ⟨fun _ => of_decide_eq_true checked.1.1, of_decide_eq_true checked.1.2,
    of_decide_eq_true checked.2⟩

/-- The answered request and a new prompt: 25 tokens, and 18 for the prompt. -/
theorem bound_is_upper_bound_sample :
    samplePricing.size (sampleCall secondMessages).request ≤ 43 := by
  have empty : emptyWorld.tracker.sessions = [] := rfl
  have accountable : ∀ session, ∀ entry ∈ (emptyWorld.logs session).history,
      Accountable samplePricing (emptyWorld.logs session).requests entry := by
    intro session entry inside
    cases inside
  have run : Reaches (Step samplePricing) (Covered samplePlatform) emptyWorld answeredWorld :=
    answered_reached (fun _ _ _ => trivial) (attributed_of_check (by decide +kernel))
  have attributed : Attributed samplePlatform answeredWorld (sampleCall secondMessages) :=
    attributed_of_check (by decide +kernel)
  have covers : samplePricing.fixed (sampleCall secondMessages).config ≤ 5 := le_refl 5
  exact bound_is_upper_bound empty accountable run attributed covers (by decide +kernel)

/-- The usage of the first answer is taken for a request that contained the second prompt. -/
theorem bound_below_size : ∃ world : SampleWorld,
    Reaches (Step samplePricing) (fun _ _ => True) emptyWorld world ∧
      bound samplePlatform ((sampleCall secondMessages).prepared samplePlatform world) secondMessages
        (samplePricing.fixed sampleConfig) = some (some 25) ∧
      samplePricing.size (sampleCall secondMessages).request = 35 := by
  refine ⟨revertedWorld, ?_, by decide +kernel, rfl⟩
  apply Reaches.snoc _ _ (Step.revert _ [] 3) trivial
  apply Reaches.snoc _ _ (remembering_step _ thirdMessages (by decide +kernel)) trivial
  apply Reaches.snoc _ _ (Step.append _ [] (userEntry "u3") (userEntry_accountable _ _)) trivial
  apply Reaches.snoc _ _ (Step.append _ [] (assistantEntry "a2" 35 secondMessages) _) trivial
  · apply Reaches.snoc _ _ (remembering_step _ secondMessages (by decide +kernel)) trivial
    exact answered_reached (fun _ _ _ => trivial) trivial
  · exact assistantEntry_accountable (by decide +kernel) rfl

end Reflection.Plugin
