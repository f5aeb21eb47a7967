/-
The canonical history of a session: its turns and its source messages.

A turn is opened by a normal user message and takes every visible assistant message that names it
as its parent, wherever that stands. Source messages are numbered as they come, so each turn is a
part of the source in order.
-/

import Reflection.Foundation.EntryMaps
import Reflection.Segments.Messages

namespace Reflection.Segments

open JsString

variable {numbers : Numbers}

structure IndexedMessage (numbers : Numbers) where
  index : Nat
  sourceIndex : Nat
  turnIndex : Nat
  message : OpenCodeMessage numbers

structure CompleteTurn (numbers : Numbers) where
  index : Nat
  userMessageId : JsString
  charCount : ℕ∞
  closed : Bool
  messages : List (IndexedMessage numbers)

structure CanonicalHistory (numbers : Numbers) where
  turns : List (CompleteTurn numbers)
  messages : List (IndexedMessage numbers)

def normalUsers (messages : List (OpenCodeMessage numbers)) : List (OpenCodeMessage numbers) :=
  messages.filter isNormalUserMessage

/-- The turns by the ids of their users. -/
def userTurns (messages : List (OpenCodeMessage numbers)) : AList fun _ : JsString => Nat :=
  ofEntries ((normalUsers messages).zipIdx.map fun (user, index) => (user.id, index))

def emptyTurns (messages : List (OpenCodeMessage numbers)) : List (CompleteTurn numbers) :=
  (normalUsers messages).zipIdx.map fun (user, index) =>
    { index := index
      userMessageId := user.id
      charCount := 0
      closed := false
      messages := [] }

/-- The id of the user whose turn a message may belong to. An empty parent names no turn. -/
def ownerId (message : OpenCodeMessage numbers) : Option JsString :=
  if isNormalUserMessage message then some message.id
  else if message.role == .assistant && isModelVisibleMessage message then
    message.parentID.filter fun parentID => !parentID.isEmpty
  else none

def turnOf (users : AList fun _ : JsString => Nat) (message : OpenCodeMessage numbers) : Option Nat :=
  (ownerId message).bind users.lookup

/-- The second pass over the messages. -/
def addMessage (users : AList fun _ : JsString => Nat) (history : CanonicalHistory numbers)
    (entry : OpenCodeMessage numbers × Nat) : CanonicalHistory numbers :=
  match turnOf users entry.1 with
  | none => history
  | some turnIndex =>
      let indexed :=
        { index := entry.2
          sourceIndex := history.messages.length
          turnIndex := turnIndex
          message := entry.1 }
      { turns := history.turns.modify turnIndex fun turn =>
          { turn with
            messages := turn.messages ++ [indexed]
            charCount := turn.charCount + modelVisibleCharWeightOf entry.1 }
        messages := history.messages ++ [indexed] }

/-- All turns but the last are closed. -/
def closeTurns (turns : List (CompleteTurn numbers)) : List (CompleteTurn numbers) :=
  turns.zipIdx.map fun (turn, index) => { turn with closed := decide (index < turns.length - 1) }

def canonicalHistory (messages : List (OpenCodeMessage numbers)) : CanonicalHistory numbers :=
  let history := messages.zipIdx.foldl (addMessage (userTurns messages))
    { turns := emptyTurns messages
      messages := [] }
  { history with turns := closeTurns history.turns }

end Reflection.Segments
