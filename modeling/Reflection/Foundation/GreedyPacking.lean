/-
Greedy packing of a sequence of weighted items under one limit.

An open chunk grows item by item. It closes before an item that would carry it
over the limit and after an item that brings it to the limit. The library names
no program: items, weights and the limit are parameters, and the results say
what a packing covers, how it composes and when a chunk closes.
-/

import Mathlib

namespace Reflection.GreedyPacking

section Weight

variable {α W : Type} [AddCommMonoid W]

/-- Total weight of a chunk. -/
def weigh (weight : α → W) (chunk : List α) : W := (chunk.map weight).sum

@[simp] theorem weigh_nil (weight : α → W) : weigh weight [] = 0 := rfl

theorem weigh_append (weight : α → W) (left right : List α) :
    weigh weight (left ++ right) = weigh weight left + weigh weight right := by
  simp only [weigh, List.map_append, List.sum_append]

theorem weigh_snoc (weight : α → W) (chunk : List α) (item : α) :
    weigh weight (chunk ++ [item]) = weigh weight chunk + weight item := by
  simp only [weigh, List.map_append, List.map_cons, List.map_nil, List.sum_append,
    List.sum_singleton]

end Weight

variable {α W : Type} [AddCommMonoid W] [LinearOrder W]

/-- The closed chunks of a packing and the items still open after it. -/
abbrev Packing (α : Type) := List (List α) × List α

/-- Put a closed chunk in front of a packing of the items after it. -/
def close (chunk : List α) (packing : Packing α) : Packing α :=
  (chunk :: packing.1, packing.2)

/-- Continue a packing from an open chunk. -/
def packFrom (weight : α → W) (limit : W) : List α → List α → Packing α
  | chunk, [] => ([], chunk)
  | chunk, item :: rest =>
      if chunk ≠ [] ∧ limit < weigh weight (chunk ++ [item]) then
        close chunk
          (if limit ≤ weight item then close [item] (packFrom weight limit [] rest)
          else packFrom weight limit [item] rest)
      else if limit ≤ weigh weight (chunk ++ [item]) then
        close (chunk ++ [item]) (packFrom weight limit [] rest)
      else packFrom weight limit (chunk ++ [item]) rest

def pack (weight : α → W) (limit : W) (items : List α) : Packing α :=
  packFrom weight limit [] items

section Coverage

variable (weight : α → W) (limit : W)

theorem packFrom_nil (chunk : List α) :
    packFrom weight limit chunk [] = ([], chunk) := rfl

/-- A packing loses, duplicates and reorders nothing. -/
theorem packFrom_flatten (chunk items : List α) :
    (packFrom weight limit chunk items).1.flatten ++ (packFrom weight limit chunk items).2 =
      chunk ++ items := by
  induction items generalizing chunk with
  | nil => simp only [packFrom, List.flatten_nil, List.nil_append, List.append_nil]
  | cons item rest ih =>
      unfold packFrom
      split
      · split
        · simp only [close, List.flatten_cons, List.append_assoc]
          rw [ih, List.nil_append]
          rfl
        · simp only [close, List.flatten_cons, List.append_assoc]
          rw [ih]
          rfl
      · split
        · simp only [close, List.flatten_cons, List.append_assoc]
          rw [ih, List.nil_append, List.singleton_append]
        · rw [ih, List.append_assoc, List.singleton_append]

theorem pack_flatten (items : List α) :
    (pack weight limit items).1.flatten ++ (pack weight limit items).2 = items := by
  rw [pack, packFrom_flatten, List.nil_append]

theorem packFrom_closed_ne_nil (chunk items : List α) :
    ∀ closed ∈ (packFrom weight limit chunk items).1, closed ≠ [] := by
  induction items generalizing chunk with
  | nil => intro closed member; cases member
  | cons item rest ih =>
      intro closed member
      unfold packFrom at member
      split at member
      · rename_i overflow
        rcases List.mem_cons.mp member with same | later
        · rw [same]
          exact overflow.1
        · split at later
          · rcases List.mem_cons.mp later with same | later
            · rw [same]
              exact List.cons_ne_nil _ _
            · exact ih [] closed later
          · exact ih [item] closed later
      · split at member
        · rcases List.mem_cons.mp member with same | later
          · rw [same]
            exact List.append_ne_nil_of_right_ne_nil _ (List.cons_ne_nil _ _)
          · exact ih [] closed later
        · exact ih _ closed member

theorem pack_closed_ne_nil (items : List α) :
    ∀ closed ∈ (pack weight limit items).1, closed ≠ [] :=
  packFrom_closed_ne_nil weight limit [] items

/-- A chunk of several items does not exceed the limit. -/
def UnderLimit (chunk : List α) : Prop := chunk.length ≤ 1 ∨ weigh weight chunk ≤ limit

theorem packFrom_underLimit (chunk items : List α) (bounded : UnderLimit weight limit chunk) :
    (∀ closed ∈ (packFrom weight limit chunk items).1, UnderLimit weight limit closed) ∧
      UnderLimit weight limit (packFrom weight limit chunk items).2 := by
  induction items generalizing chunk with
  | nil => exact ⟨fun closed member => (nomatch member), bounded⟩
  | cons item rest ih =>
      have alone : UnderLimit weight limit [item] := .inl (Nat.le_refl 1)
      have empty : UnderLimit weight limit ([] : List α) := .inl (Nat.zero_le 1)
      unfold packFrom
      split
      · split
        · have later := ih [] empty
          refine ⟨List.forall_mem_cons.mpr ⟨bounded, List.forall_mem_cons.mpr ⟨alone, later.1⟩⟩, later.2⟩
        · have later := ih [item] alone
          exact ⟨List.forall_mem_cons.mpr ⟨bounded, later.1⟩, later.2⟩
      · rename_i fits
        have grown : UnderLimit weight limit (chunk ++ [item]) := by
          by_cases first : chunk = []
          · rw [first]
            exact alone
          · exact .inr (not_lt.mp fun overflow => fits ⟨first, overflow⟩)
        split
        · have later := ih [] empty
          exact ⟨List.forall_mem_cons.mpr ⟨grown, later.1⟩, later.2⟩
        · exact ih _ grown

theorem pack_underLimit (items : List α) :
    (∀ closed ∈ (pack weight limit items).1, UnderLimit weight limit closed) ∧
      UnderLimit weight limit (pack weight limit items).2 :=
  packFrom_underLimit weight limit [] items (.inl (Nat.zero_le 1))

/-- Packing a concatenation resumes from the chunk left open by its first part. -/
theorem packFrom_append (chunk first second : List α) :
    packFrom weight limit chunk (first ++ second) =
      ((packFrom weight limit chunk first).1 ++
          (packFrom weight limit (packFrom weight limit chunk first).2 second).1,
        (packFrom weight limit (packFrom weight limit chunk first).2 second).2) := by
  induction first generalizing chunk with
  | nil => simp only [packFrom_nil, List.nil_append, Prod.mk.eta]
  | cons item rest ih =>
      rw [List.cons_append, packFrom, packFrom]
      split
      · split <;> simp only [close, ih, List.cons_append]
      · split <;> simp only [close, ih, List.cons_append]

theorem pack_append (first second : List α) :
    pack weight limit (first ++ second) =
      ((pack weight limit first).1 ++
          (packFrom weight limit (pack weight limit first).2 second).1,
        (packFrom weight limit (pack weight limit first).2 second).2) :=
  packFrom_append weight limit [] first second

/-- Closed chunks are final: more items only add chunks after them. -/
theorem pack_closed_prefix (first second : List α) :
    (pack weight limit first).1 <+: (pack weight limit (first ++ second)).1 := by
  rw [pack_append]
  exact List.prefix_append _ _

/-- A chunk closes because it reached the limit or because an item follows it. -/
theorem packFrom_closed_cause (chunk items : List α) (before later : List (List α))
    (closed : List α)
    (placed : (packFrom weight limit chunk items).1 = before ++ closed :: later) :
    limit ≤ weigh weight closed ∨
      later.flatten ++ (packFrom weight limit chunk items).2 ≠ [] := by
  induction items generalizing chunk before with
  | nil =>
      rw [packFrom_nil] at placed
      exact absurd placed.symm (List.append_ne_nil_of_right_ne_nil _ (List.cons_ne_nil _ _))
  | cons item rest ih =>
      unfold packFrom at placed ⊢
      split
      · rename_i overflow
        rw [if_pos overflow] at placed
        split
        · rename_i full
          rw [if_pos full] at placed
          rcases List.cons_eq_append_iff.mp placed with ⟨_, same⟩ | ⟨earlier, _, inner⟩
          · obtain ⟨_, laterEq⟩ := List.cons.inj same
            right
            rw [laterEq]
            simp [close]
          · rcases List.cons_eq_append_iff.mp inner with ⟨_, same⟩ | ⟨_, _, deeper⟩
            · obtain ⟨closedEq, _⟩ := List.cons.inj same
              left
              simpa [closedEq, weigh] using full
            · exact ih [] _ deeper
        · rename_i small
          rw [if_neg small] at placed
          rcases List.cons_eq_append_iff.mp placed with ⟨_, same⟩ | ⟨_, _, inner⟩
          · obtain ⟨_, laterEq⟩ := List.cons.inj same
            right
            rw [laterEq]
            change (packFrom weight limit [item] rest).1.flatten ++
              (packFrom weight limit [item] rest).2 ≠ []
            rw [packFrom_flatten]
            exact List.cons_ne_nil _ _
          · exact ih [item] _ inner
      · rename_i fits
        rw [if_neg fits] at placed
        split
        · rename_i full
          rw [if_pos full] at placed
          rcases List.cons_eq_append_iff.mp placed with ⟨_, same⟩ | ⟨_, _, inner⟩
          · obtain ⟨closedEq, _⟩ := List.cons.inj same
            left
            rw [closedEq]
            exact full
          · exact ih [] _ inner
        · rename_i small
          rw [if_neg small] at placed
          exact ih _ _ placed

end Coverage

section Restart

variable (weight : α → W) (limit : W)

private theorem packFrom_restart (chunk items closed : List α) (later : List (List α))
    (left : List α) (packed : packFrom weight limit chunk items = (closed :: later, left)) :
    pack weight limit ((chunk ++ items).drop closed.length) = (later, left) := by
  induction items generalizing chunk with
  | nil =>
      rw [packFrom_nil] at packed
      cases packed
  | cons item rest ih =>
      unfold packFrom at packed
      split at packed
      · -- The chunk closes before `item`, where a fresh packing makes the same choice.
        simp only [close, Prod.mk.injEq, List.cons.injEq] at packed
        obtain ⟨⟨same, laterEq⟩, leftEq⟩ := packed
        subst same
        rw [List.drop_left, pack, packFrom, if_neg (fun both => both.1 rfl)]
        simp only [List.nil_append, weigh, List.map_cons, List.map_nil, List.sum_singleton]
        rw [← laterEq, ← leftEq]
        split <;> rfl
      · split at packed
        · simp only [close, Prod.mk.injEq, List.cons.injEq] at packed
          obtain ⟨⟨same, laterEq⟩, leftEq⟩ := packed
          subst same
          rw [show chunk ++ item :: rest = (chunk ++ [item]) ++ rest by
            rw [List.append_assoc, List.singleton_append], List.drop_left, pack]
          rw [← laterEq, ← leftEq]
        · rw [show chunk ++ item :: rest = (chunk ++ [item]) ++ rest by
            rw [List.append_assoc, List.singleton_append]]
          exact ih _ packed

/-- After its first closed chunk a packing is the packing of what follows it. -/
theorem pack_restart (items closed : List α) (later : List (List α)) (left : List α)
    (packed : pack weight limit items = (closed :: later, left)) :
    pack weight limit (items.drop closed.length) = (later, left) := by
  have restarted := packFrom_restart weight limit [] items closed later left packed
  rwa [List.nil_append] at restarted

/-- Packing what follows the first `count` closed chunks gives the remaining ones. -/
theorem pack_drop (items : List α) (count : Nat)
    (bound : count ≤ (pack weight limit items).1.length) :
    pack weight limit (items.drop ((pack weight limit items).1.take count).flatten.length) =
      ((pack weight limit items).1.drop count, (pack weight limit items).2) := by
  induction count generalizing items with
  | zero => simp only [List.take_zero, List.flatten_nil, List.length_nil, List.drop_zero]
  | succ count ih =>
      cases packed : pack weight limit items with
      | mk chunks left =>
          cases chunks with
          | nil =>
              rw [packed] at bound
              exact absurd bound (Nat.not_succ_le_zero count)
          | cons closed later =>
              have restarted := pack_restart weight limit items closed later left packed
              have inner := ih (items.drop closed.length) (by
                rw [restarted]
                rw [packed] at bound
                exact Nat.le_of_succ_le_succ bound)
              rw [restarted] at inner
              simp only [List.take_succ_cons, List.flatten_cons, List.length_append,
                List.drop_succ_cons]
              rw [← List.drop_drop]
              exact inner

end Restart

/-! ### Chunks packed on their own -/

section Whole

variable (weight : α → W) (limit : W)

/-- Packed on its own, the chunk stays in one piece. -/
def Whole (chunk : List α) : Prop :=
  pack weight limit chunk = ([], chunk) ∨ pack weight limit chunk = ([chunk], [])

private theorem pack_one (item : α) :
    pack weight limit [item] =
      if limit ≤ weight item then ([[item]], []) else ([], [item]) := by
  unfold pack packFrom
  rw [if_neg (fun both => both.1 rfl)]
  simp only [List.nil_append, weigh, List.map_cons, List.map_nil, List.sum_singleton]
  split <;> rfl

private theorem pack_grown {chunk : List α} (isOpen : pack weight limit chunk = ([], chunk))
    {item : α} (fits : ¬ (chunk ≠ [] ∧ limit < weigh weight (chunk ++ [item]))) :
    pack weight limit (chunk ++ [item]) =
      if limit ≤ weigh weight (chunk ++ [item]) then ([chunk ++ [item]], [])
      else ([], chunk ++ [item]) := by
  rw [pack_append, isOpen]
  unfold packFrom
  rw [if_neg fits]
  split <;> rfl

/-- What a packing closes and what it leaves open is packed the same way on its own. -/
theorem packFrom_whole (chunk items : List α) (isOpen : pack weight limit chunk = ([], chunk)) :
    (∀ closed ∈ (packFrom weight limit chunk items).1, Whole weight limit closed) ∧
      pack weight limit (packFrom weight limit chunk items).2 =
        ([], (packFrom weight limit chunk items).2) := by
  induction items generalizing chunk with
  | nil => exact ⟨fun closed member => (nomatch member), isOpen⟩
  | cons item rest ih =>
      unfold packFrom
      split
      · have alone := pack_one weight limit item
        split
        · rename_i full
          rw [if_pos full] at alone
          have later := ih [] rfl
          refine ⟨fun closed member => ?_, later.2⟩
          rcases List.mem_cons.mp member with rfl | others
          · exact .inl isOpen
          · rcases List.mem_cons.mp others with rfl | deeper
            · exact .inr alone
            · exact later.1 closed deeper
        · rename_i small
          rw [if_neg small] at alone
          have later := ih [item] alone
          refine ⟨fun closed member => ?_, later.2⟩
          rcases List.mem_cons.mp member with rfl | others
          · exact .inl isOpen
          · exact later.1 closed others
      · rename_i fits
        have grown := pack_grown weight limit isOpen fits
        split
        · rename_i full
          rw [if_pos full] at grown
          have later := ih [] rfl
          refine ⟨fun closed member => ?_, later.2⟩
          rcases List.mem_cons.mp member with rfl | others
          · exact .inr grown
          · exact later.1 closed others
        · rename_i small
          rw [if_neg small] at grown
          exact ih _ grown

theorem pack_closed_whole (items : List α) :
    ∀ closed ∈ (pack weight limit items).1, Whole weight limit closed :=
  (packFrom_whole weight limit [] items rfl).1

theorem pack_left_whole (items : List α) : Whole weight limit (pack weight limit items).2 :=
  .inl (packFrom_whole weight limit [] items rfl).2

private theorem packFrom_first (chunk items closed : List α) (later : List (List α))
    (packed : (packFrom weight limit chunk items).1 = closed :: later) : chunk <+: closed := by
  induction items generalizing chunk with
  | nil => cases packed
  | cons item rest ih =>
      unfold packFrom at packed
      split at packed
      · exact (List.cons.inj packed).1 ▸ List.prefix_refl chunk
      · split at packed
        · exact (List.cons.inj packed).1 ▸ List.prefix_append chunk [item]
        · exact (List.prefix_append chunk [item]).trans (ih _ packed)

/-- A packing that starts with a whole chunk does not close inside it. -/
theorem pack_first_extends {chunk rest closed : List α} {later : List (List α)}
    (whole : Whole weight limit chunk)
    (packed : (pack weight limit (chunk ++ rest)).1 = closed :: later) : chunk <+: closed := by
  rw [pack_append] at packed
  rcases whole with isOpen | isClosed
  · rw [isOpen, List.nil_append] at packed
    exact packFrom_first weight limit chunk rest closed later packed
  · rw [isClosed] at packed
    exact (List.cons.inj packed).1 ▸ List.prefix_refl chunk

/-- What is left open stays under the limit. -/
private theorem packFrom_left_lt (chunk items : List α)
    (small : chunk = [] ∨ weigh weight chunk < limit) :
    (packFrom weight limit chunk items).2 = [] ∨
      weigh weight (packFrom weight limit chunk items).2 < limit := by
  induction items generalizing chunk with
  | nil => exact small
  | cons item rest ih =>
      unfold packFrom
      split
      · split
        · exact ih [] (.inl rfl)
        · rename_i notFull
          apply ih
          right
          simpa only [weigh, List.map_cons, List.map_nil, List.sum_singleton, not_le] using notFull
      · split
        · exact ih [] (.inl rfl)
        · rename_i notFull
          exact ih _ (.inr (not_le.mp notFull))

/-- A whole chunk that reaches the limit closes exactly at its end. -/
theorem pack_first_of_full {chunk : List α} (nonempty : chunk ≠ [])
    (whole : Whole weight limit chunk) (full : limit ≤ weigh weight chunk) (rest : List α) :
    ∃ later, (pack weight limit (chunk ++ rest)).1 = chunk :: later := by
  rcases whole with isOpen | isClosed
  · have light := packFrom_left_lt weight limit [] chunk (.inl rfl)
    change (pack weight limit chunk).2 = [] ∨ weigh weight (pack weight limit chunk).2 < limit
      at light
    rw [isOpen] at light
    rcases light with empty | below
    · exact absurd empty nonempty
    · exact absurd full (not_le.mpr below)
  · exact ⟨_, by rw [pack_append, isClosed]; rfl⟩

/-- A whole chunk closes exactly at its end when the next item would overflow it. -/
theorem pack_first_of_overflow {chunk : List α} (nonempty : chunk ≠ [])
    (whole : Whole weight limit chunk) {item : α}
    (overflow : limit < weigh weight (chunk ++ [item])) (rest : List α) :
    ∃ later, (pack weight limit (chunk ++ item :: rest)).1 = chunk :: later := by
  rw [pack_append]
  rcases whole with isOpen | isClosed
  · rw [isOpen, packFrom, if_pos ⟨nonempty, overflow⟩]
    exact ⟨_, rfl⟩
  · rw [isClosed]
    exact ⟨_, rfl⟩

end Whole

/-- Items that stay under the limit together close nothing. -/
theorem pack_closed_nil [CanonicallyOrderedAdd W] (weight : α → W) (limit : W) {items : List α}
    (light : weigh weight items < limit) : (pack weight limit items).1 = [] := by
  have fromChunk : ∀ (items chunk : List α), weigh weight (chunk ++ items) < limit →
      (packFrom weight limit chunk items).1 = [] := by
    intro items
    induction items with
    | nil => exact fun chunk _ => rfl
    | cons item rest ih =>
        intro chunk small
        rw [show chunk ++ item :: rest = (chunk ++ [item]) ++ rest by
          rw [List.append_assoc, List.singleton_append]] at small
        have below : weigh weight (chunk ++ [item]) < limit := by
          rw [weigh_append] at small
          exact lt_of_le_of_lt le_self_add small
        unfold packFrom
        rw [if_neg (fun both => absurd both.2 (not_lt.mpr below.le)), if_neg (not_le.mpr below)]
        exact ih _ small
  exact fromChunk items [] light

end Reflection.GreedyPacking
