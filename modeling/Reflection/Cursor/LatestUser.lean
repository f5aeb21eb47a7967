/-
The latest actual user input is sent in every projected request: in the raw tail, or copied
into the notice.

A cut that is kept copies the anchor the previous call reported. It stays right because the
messages before the start of a tail that have ids do not lie behind the cut's message: a
user message that comes later is in the tail, and one that the cut archives was already the
latest one when the anchor was chosen.
-/

import Reflection.Cursor.HardBudget
import Reflection.Cursor.Session

namespace Reflection.Cursor

/-- The message at a position is sent in the raw tail, behind at most one message. -/
def InTail (messages sent : List Message) (position : Nat) : Prop :=
  ∃ start ≤ position, sent = messages.drop start ∨ sent.tail = messages.drop start

instance (messages sent : List Message) (position : Nat) :
    Decidable (InTail messages sent position) :=
  inferInstanceAs (Decidable (∃ start ≤ position, _))

/-- The first message sent copies the content of a message behind the anchor's header. -/
def Copied (message : Message) (sent : List Message) : Prop :=
  (sent.head?.map fun notice => notice.content.tail) =
    some ([.text anchorHeader] ++ message.content ++ [.text anchorFooter])

instance (message : Message) (sent : List Message) : Decidable (Copied message sent) :=
  inferInstanceAs (Decidable (_ = _))

/-- The latest message of a user is in the raw tail or copied into the notice. -/
def LatestUserSent (messages sent : List Message) : Prop :=
  ∀ position message, latestUser messages = some position → messages[position]? = some message →
    InTail messages sent position ∨ Copied message sent

section LatestUser

variable {N : Type} [Add N] [Sub N] [NatCast N] [LinearOrder N]
variable {estimators : Estimators N} {input : ProjectionInput N}

/-! ### One request -/

/-- A request sends the latest user message when its notice copies no other one instead. -/
theorem Built.latestUserSent {costs : List N} {cut : Option Cut} {start : Nat} {bounded : Bool}
    {made : Candidate N} {head : Option (Notice N)}
    (built : Built estimators input costs cut start bounded made head)
    (right : ∀ anchored latest, cut.bind (·.anchor) = some anchored →
      latestUser input.messages = some latest → latest < start → anchored = latest) :
    LatestUserSent input.messages made.messages := by
  intro position message isLatest present
  rw [built.messages]
  rcases built.archived with ⟨noHead, _, whole⟩ | ⟨archived, isHead, isNotice⟩
  · left
    rw [noHead, whole]
    exact ⟨0, Nat.zero_le _, .inl rfl⟩
  · rw [isHead]
    by_cases inside : start ≤ position
    · left
      exact ⟨start, inside, .inr rfl⟩
    · right
      have before : position < start := Nat.lt_of_not_le inside
      have anchor : noticeAnchor input.messages cut start = some message := by
        unfold noticeAnchor
        cases anchored : cut.bind (·.anchor) with
        | some index =>
            rw [Option.some_or, Option.bind_some, right index position anchored isLatest before]
            exact present
        | none =>
            rw [Option.none_or, isLatest, Option.bind_some, if_pos before, Option.bind_some]
            exact present
      rw [notice_eq, anchor] at isNotice
      obtain ⟨tokens, _, same⟩ := Option.map_eq_some_iff.mp isNotice
      rw [← same]
      rfl

/-! ### What the state fed back remembers -/

/-- The recorded anchor is the latest user message unless that one lies behind the cut's
message. -/
structure Remembers (messages : List Message) (through : JsString) (anchor : Option JsString) :
    Prop where
  position : ∃ position, positionOf messages through = some position ∧
    ∀ id, anchor = some id → ∃ anchored, positionOf messages id = some anchored ∧
      ∀ latest, latestUser messages = some latest → latest ≤ position → anchored = latest

def Session.Current (session : Session N) : Prop :=
  ∀ through anchor, session.projectedThrough = some through →
    session.projectedAnchor = some anchor → Remembers session.messages through anchor

/-- A later user message lies behind every cut of the earlier history. -/
theorem Remembers.append {messages appended : List Message} {through : JsString}
    {anchor : Option JsString} (distinct : DistinctIds (messages ++ appended))
    (remembers : Remembers messages through anchor) :
    Remembers (messages ++ appended) through anchor := by
  obtain ⟨position, found, anchors⟩ := remembers.position
  refine ⟨position, positionOf_append distinct found, fun id isAnchor => ?_⟩
  obtain ⟨anchored, isAnchored, right⟩ := anchors id isAnchor
  refine ⟨anchored, positionOf_append distinct isAnchored, fun latest isLatest archived => ?_⟩
  rw [latestUser_append, Option.or_eq_some_iff] at isLatest
  rcases isLatest with later | ⟨_, earlier⟩
  · obtain ⟨offset, _, same⟩ := Option.map_eq_some_iff.mp later
    have inside := positionOf_lt found
    omega
  · exact right latest earlier archived

/-- A cut copies the latest user message if that one does not lie behind the cut's message. -/
structure AnchorsLatest (messages : List Message) (cut : Cut) : Prop where
  through : positionOf messages cut.id = some cut.through
  start : cut.start = startBehind messages cut.through
  present : ∀ anchored, cut.anchor = some anchored →
    ∃ message id, messages[anchored]? = some message ∧ message.id = some id
  latest : ∀ anchored latest, cut.anchor = some anchored → latestUser messages = some latest →
    latest ≤ cut.through → anchored = latest

theorem withAnchor_anchorsLatest {messages : List Message} {id : JsString} {cut : Cut}
    {anchor : Option (Option JsString)} (made : cutThrough messages id = some cut)
    (right : ∀ recorded, anchor = some recorded → Remembers messages id recorded) :
    AnchorsLatest messages (withAnchor messages cut anchor) := by
  obtain ⟨through, found, _, rfl⟩ := cutThrough_eq_some_iff.mp made
  rw [withAnchor_eq _ _ _ rfl]
  refine ⟨found, rfl, fun anchored isAnchored => ?_, fun anchored latest isAnchored isLatest archived => ?_⟩
  · have named := (Option.filter_eq_some_iff.mp isAnchored).1
    cases anchor with
    | none =>
        obtain ⟨message, id, present, _, isId⟩ := latestUser_some named
        exact ⟨message, id, present, isId⟩
    | some recorded =>
        cases recorded with
        | none => cases named
        | some id =>
            obtain ⟨message, present, isId⟩ := positionOf_some named
            exact ⟨message, id, present, isId⟩
  · have named := (Option.filter_eq_some_iff.mp isAnchored).1
    cases anchor with
    | none =>
        change latestUser messages = some anchored at named
        rw [isLatest] at named
        exact (Option.some.inj named).symm
    | some recorded =>
        cases recorded with
        | none => cases named
        | some anchorId =>
            obtain ⟨position, isPosition, anchors⟩ := (right _ rfl).position
            rw [found] at isPosition
            cases isPosition
            obtain ⟨known, isKnown, latestIs⟩ := anchors anchorId rfl
            change positionOf messages anchorId = some anchored at named
            rw [isKnown] at named
            cases named
            exact latestIs latest isLatest archived

theorem AnchorsLatest.before {messages : List Message} {cut : Cut}
    (right : AnchorsLatest messages cut) {anchored latest : Nat}
    (isAnchored : cut.anchor = some anchored) (isLatest : latestUser messages = some latest)
    (archived : latest < cut.start) : anchored = latest := by
  obtain ⟨message, id, present, _, named⟩ := latestUser_some isLatest
  apply right.latest anchored latest isAnchored isLatest
  rw [right.start] at archived
  exact le_through_of_lt_startBehind present named archived

/-- What a request behind a cut reports is remembered for the next call. -/
theorem Built.remembers {costs : List N} {cut : Cut} {start : Nat} {bounded : Bool}
    {made : Candidate N} {head : Option (Notice N)} (distinct : DistinctIds input.messages)
    (built : Built estimators input costs (some cut) start bounded made head)
    (right : AnchorsLatest input.messages cut) :
    Remembers input.messages cut.id made.projectedAnchor := by
  refine ⟨cut.through, right.through, fun id isAnchor => ?_⟩
  rcases built.archived with ⟨_, impossible, _⟩ | ⟨archived, isHead, isNotice⟩
  · cases impossible
  · rw [notice_eq] at isNotice
    obtain ⟨_, _, same⟩ := Option.map_eq_some_iff.mp isNotice
    rw [built.projectedAnchor, isHead, ← same] at isAnchor
    change (noticeAnchor input.messages (some cut) start).bind (·.id) = some id at isAnchor
    obtain ⟨message, isMessage, named⟩ := Option.bind_eq_some_iff.mp isAnchor
    obtain ⟨position, isPosition, present⟩ := Option.bind_eq_some_iff.mp isMessage
    refine ⟨position, distinct.positionOf present named, fun latest isLatest before => ?_⟩
    rcases Option.or_eq_some_iff.mp isPosition with anchored | ⟨_, fallback⟩
    · exact right.latest position latest anchored isLatest before
    · rw [isLatest, Option.bind_some] at fallback
      split at fallback
      · exact (Option.some.inj fallback).symm
      · cases fallback

/-! ### Runs -/

/-- Ids name one message, and the soft limit does not exceed the hard one. -/
def Regular (_ : Session N) (call : Call N) : Prop :=
  DistinctIds call.input.messages ∧ call.input.softTokens ≤ call.input.hardTokens

theorem Reported.latestUserSent {costs : List N} {projection : Candidate N} {mode : Mode}
    {result : Projection N} {start : Nat} {made : Candidate N} {head : Option (Notice N)}
    (limits : input.softTokens ≤ input.hardTokens)
    (remembers : ∀ through anchor, input.projectedThrough = some through →
      input.projectedAnchor = some anchor → Remembers input.messages through anchor)
    (chosen : Chosen estimators input costs projection mode)
    (reported : Reported estimators input costs projection mode result start made head) :
    LatestUserSent input.messages result.messages := by
  rw [reported.messages]
  obtain ⟨_, built⟩ := reported.built
  apply built.latestUserSent
  cases chosen with
  | kept isCut isBuilt small =>
      obtain ⟨id, isId, made⟩ := Option.bind_eq_some_iff.mp isCut
      have right := withAnchor_anchorsLatest made fun anchor => remembers id anchor isId
      obtain ⟨_, kept⟩ := candidate_built isBuilt
      -- A kept request is below the soft limit, so it is not trimmed.
      have untrimmed : start = projection.start := by
        apply Nat.le_antisymm (Nat.le_of_not_lt fun later => _) reported.later
        exact fun later => absurd (le_trans small limits) (not_le_of_gt (reported.trimmed later))
      intro anchored latest isAnchored isLatest before
      rw [kept.cut] at isAnchored
      rw [untrimmed, kept.start, ← withAnchor_start input.messages _ input.projectedAnchor] at before
      exact right.before isAnchored isLatest before
  | raw isBuilt =>
      obtain ⟨_, raw⟩ := candidate_built isBuilt
      intro anchored latest isAnchored
      rw [raw.cut] at isAnchored
      cases isAnchored
  | fired isCut isBuilt =>
      obtain ⟨_, made⟩ := fireCut_made isCut
      obtain ⟨_, _, _, plain⟩ := cutThrough_eq_some_iff.mp made
      obtain ⟨_, fired⟩ := candidate_built isBuilt
      intro anchored latest isAnchored isLatest _
      rw [fired.cut, Option.bind_some, withAnchor_eq _ _ _ (by rw [plain])] at isAnchored
      have named := (Option.filter_eq_some_iff.mp isAnchored).1
      change latestUser input.messages = some anchored at named
      rw [isLatest] at named
      exact (Option.some.inj named).symm

theorem Reported.remembers {costs : List N} {projection : Candidate N} {mode : Mode}
    {result : Projection N} {start : Nat} {made : Candidate N} {head : Option (Notice N)}
    (distinct : DistinctIds input.messages)
    (remembers : ∀ through anchor, input.projectedThrough = some through →
      input.projectedAnchor = some anchor → Remembers input.messages through anchor)
    (chosen : Chosen estimators input costs projection mode)
    (reported : Reported estimators input costs projection mode result start made head)
    {through : JsString} (isThrough : result.projectedThrough = some through) :
    Remembers input.messages through result.projectedAnchor := by
  obtain ⟨_, built⟩ := reported.built
  rw [reported.projectedThrough, built.projectedThrough] at isThrough
  rw [reported.projectedAnchor]
  obtain ⟨cut, isCut, rfl⟩ := Option.map_eq_some_iff.mp isThrough
  rw [isCut] at built
  apply built.remembers distinct
  cases chosen with
  | kept isPrevious isBuilt small =>
      obtain ⟨id, isId, made⟩ := Option.bind_eq_some_iff.mp isPrevious
      obtain ⟨_, kept⟩ := candidate_built isBuilt
      rw [kept.cut] at isCut
      cases isCut
      exact withAnchor_anchorsLatest made fun anchor => remembers id anchor isId
  | raw isBuilt =>
      obtain ⟨_, raw⟩ := candidate_built isBuilt
      rw [raw.cut] at isCut
      cases isCut
  | fired isFired isBuilt =>
      obtain ⟨_, made⟩ := fireCut_made isFired
      obtain ⟨_, fired⟩ := candidate_built isBuilt
      rw [fired.cut] at isCut
      cases isCut
      exact withAnchor_anchorsLatest made fun anchor impossible => nomatch impossible

/-- One call on a session that remembers the right anchor. -/
theorem Step.latestUserSent {before after : Session N} {call : Call N} (step : Step before call after)
    (regular : Regular before call) (current : before.Current) :
    after.Current ∧ ∀ result ∈ after.last, LatestUserSent after.messages result.messages := by
  obtain ⟨appended, grown⟩ := step.grown
  obtain ⟨result, selected, rfl⟩ := step.returned
  obtain ⟨distinct, limits⟩ := regular
  have remembers : ∀ through anchor, call.input.projectedThrough = some through →
      call.input.projectedAnchor = some anchor → Remembers call.input.messages through anchor := by
    intro through anchor isThrough isAnchor
    rw [step.projectedThrough] at isThrough
    rw [step.projectedAnchor] at isAnchor
    rw [grown] at distinct ⊢
    exact (current through anchor isThrough isAnchor).append distinct
  obtain ⟨costs, projection, mode, start, made, head, chosen, reported⟩ :=
    selectCursorProjection_reported selected
  constructor
  · intro through anchor isThrough isAnchor
    cases isAnchor
    exact reported.remembers distinct remembers chosen isThrough
  · intro last isLast
    cases isLast
    exact reported.latestUserSent limits remembers chosen

/-- In every run on histories with distinct ids and with a soft limit up to the hard one,
every call sends the latest user message. -/
theorem latestUser_always_sent {messages : List Message} {projectedThrough : Option JsString}
    {finish : Session N} (run : Reaches Step Regular (Session.fresh messages projectedThrough) finish) :
    ∀ result ∈ finish.last, LatestUserSent finish.messages result.messages := by
  have invariant : finish.Current ∧
      ∀ result ∈ finish.last, LatestUserSent finish.messages result.messages := by
    apply @Reaches.invariant _ _ _ _ (fun session => session.Current ∧
      ∀ result ∈ session.last, LatestUserSent session.messages result.messages) _ _ _ run
    · constructor
      · intro through anchor _ isAnchor
        cases isAnchor
      · intro result impossible
        cases impossible
    · intro before call after holds step regular
      exact step.latestUserSent regular holds.1
  exact invariant.2

end LatestUser

/-! ### Two calls that lose the latest user message -/

def workedMessages : List Message :=
  [ sampleMessage "u1" .user [.text (words 2)],
    sampleMessage "a1" .assistant [.text (words 30)],
    sampleMessage "a2" .assistant [.text (words 2)] ]

def measuredCall (tokens softTokens hardTokens : Int) : Call Int :=
  { estimators := measuredAs tokens
    input := { asciiInput softTokens hardTokens with contextLimit := 200 } }

/-- A call on the worked messages and one after more have been appended. -/
def calledTwice (first second : Call Int) (appended : List Message) : Option (Session Int) :=
  ((Session.fresh [] none).project workedMessages first).bind (·.project appended second)

def laterUser : Message := sampleMessage "u2" .user [.text (words 4)]

def laterAnswer : Message := sampleMessage "a3" .assistant [.text (words 2)]

theorem calledTwice_reaches {allowed : Session Int → Call Int → Prop} {first second : Call Int}
    {appended : List Message} {finish : Session Int}
    (called : calledTwice first second appended = some finish)
    (one : ∀ session, allowed session
      { first with input := (Session.fresh [] none : Session Int).input workedMessages first.input })
    (two : ∀ (session : Session Int), session.messages = workedMessages →
      allowed session { second with input := session.input appended second.input }) :
    Reaches Step allowed (Session.fresh [] none) finish ∧
      finish.messages = workedMessages ++ appended := by
  obtain ⟨middle, started, continued⟩ := Option.bind_eq_some_iff.mp called
  have messages : middle.messages = workedMessages := by
    obtain ⟨_, _, same⟩ := Option.map_eq_some_iff.mp started
    rw [← same]
    rfl
  constructor
  · exact ((Reaches.refl _).snoc _ (Session.project_step started) (one _)).snoc _
      (Session.project_step continued) (two middle messages)
  · obtain ⟨_, _, same⟩ := Option.map_eq_some_iff.mp continued
    rw [← same, ← messages]
    rfl

/-- Some run of allowed calls ends with the latest user message nowhere in the request. -/
def LosesLatestUser (allowed : Session Int → Call Int → Prop) : Prop :=
  ∃ finish, Reaches Step allowed (Session.fresh [] none : Session Int) finish ∧
    ∃ result ∈ finish.last, ¬ LatestUserSent finish.messages result.messages

private theorem losesLatestUser_of_run {allowed : Session Int → Call Int → Prop} {first second : Call Int}
    {appended : List Message}
    (ran : ((calledTwice first second appended).bind (·.last)).map (fun result =>
      (decide (InTail (workedMessages ++ appended) result.messages 3),
        decide (Copied laterUser result.messages))) = some (false, false))
    (isLatest : latestUser (workedMessages ++ appended) = some 3)
    (present : (workedMessages ++ appended)[3]? = some laterUser)
    (one : ∀ session, allowed session
      { first with input := (Session.fresh [] none : Session Int).input workedMessages first.input })
    (two : ∀ (session : Session Int), session.messages = workedMessages →
      allowed session { second with input := session.input appended second.input }) :
    LosesLatestUser allowed := by
  obtain ⟨result, isResult, same⟩ := Option.map_eq_some_iff.mp ran
  obtain ⟨finish, called, isLast⟩ := Option.bind_eq_some_iff.mp isResult
  obtain ⟨reached, messages⟩ := calledTwice_reaches called one two
  obtain ⟨noTail, noCopy⟩ := Prod.mk.inj same
  refine ⟨finish, reached, result, isLast, fun sent => ?_⟩
  rw [messages] at sent
  rcases sent 3 laterUser isLatest present with inTail | copied
  · exact of_decide_eq_false noTail inTail
  · exact of_decide_eq_false noCopy copied

/-- The latest user message is lost when a kept request is trimmed, which takes a soft limit
above the hard one, and when an appended message repeats the id of the cut's message. -/
theorem latestUser_lost :
    LosesLatestUser (fun _ call => DistinctIds call.input.messages) ∧
      LosesLatestUser (fun _ call => call.input.softTokens ≤ call.input.hardTokens) := by
  constructor
  · apply @losesLatestUser_of_run _ (measuredCall 700 600 450) (measuredCall 500 600 450)
      [laterUser, laterAnswer] (by decide +kernel) (by decide +kernel) (by decide +kernel)
    · intro _
      change DistinctIds workedMessages
      decide +kernel
    · intro session messages
      change DistinctIds (session.messages ++ _)
      rw [messages]
      decide +kernel
  · apply @losesLatestUser_of_run _ (measuredCall 700 600 650) (measuredCall 500 600 650)
      [laterUser, sampleMessage "a1" .assistant [.text (words 5)], laterAnswer]
      (by decide +kernel) (by decide +kernel) (by decide +kernel)
    · intro _
      change (600 : Int) ≤ 650
      decide
    · intro _ _
      change (600 : Int) ≤ 650
      decide

/-- The same two calls within the hard limit: the later user message is in the tail. -/
theorem latestUser_always_sent_sample :
    ∃ finish : Session Int, finish.messages.length = 5 ∧ finish.last.isSome ∧
      ∀ result ∈ finish.last, LatestUserSent finish.messages result.messages := by
  have ran : ((calledTwice (measuredCall 700 600 650) (measuredCall 500 600 650)
      [laterUser, laterAnswer]).map fun finish => finish.last.isSome) = some true := by
    decide +kernel
  obtain ⟨finish, called, isCalled⟩ := Option.map_eq_some_iff.mp ran
  have reached := @calledTwice_reaches Regular _ _ _ _ called
    (fun _ => ⟨by decide +kernel, by decide⟩)
    (fun session messages => by
      constructor
      · change DistinctIds (session.messages ++ _)
        rw [messages]
        decide +kernel
      · change (600 : Int) ≤ 650
        decide)
  refine ⟨finish, ?_, isCalled, latestUser_always_sent reached.1⟩
  rw [reached.2]
  rfl

end Reflection.Cursor
