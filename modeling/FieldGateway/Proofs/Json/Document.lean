import FieldGateway.Json.Reader
import FieldGateway.Proofs.Json.Token
import FieldGateway.Proofs.Table

-- A printed document is read back as it was, unless more containers are open at once in it
-- than the reader allows.
namespace FieldGateway.Json

mutual
def depth : Json → Nat
  | .array items => itemsDepth items + 1
  | .object fields => fieldsDepth fields + 1
  | _ => 0
def itemsDepth : List Json → Nat
  | [] => 0
  | item :: items => max (depth item) (itemsDepth items)
def fieldsDepth : List (Text × Json) → Nat
  | [] => 0
  | (_, value) :: fields => max (depth value) (fieldsDepth fields)
end

mutual
def Ordered : Json → Prop
  | .array items => ItemsOrdered items
  | .object fields => Table.Ascending fields ∧ FieldsOrdered fields
  | _ => True
def ItemsOrdered : List Json → Prop
  | [] => True
  | item :: items => Ordered item ∧ ItemsOrdered items
def FieldsOrdered : List (Text × Json) → Prop
  | [] => True
  | (_, value) :: fields => Ordered value ∧ FieldsOrdered fields
end

-- A document as the reader keeps it: every object in the order of its keys, and the last value of
-- each.
mutual
def settled : Json → Json
  | .array items => .array (settledItems items)
  | .object members => .object (settledMembers [] members)
  | .null => .null
  | .bool b => .bool b
  | .number n => .number n
  | .text t => .text t
def settledItems : List Json → List Json
  | [] => []
  | item :: items => settled item :: settledItems items
def settledMembers (before : Fields) : List (Text × Json) → Fields
  | [] => before
  | (key, value) :: members => settledMembers (Table.put key (settled value) before) members
end

variable {stack : List Frame} {reading next : Reading} {tail : List Token}

theorem run_step {token : Token} (step : reading.step token = some next) (tail : List Token) :
    Reading.run (token :: tail) reading = Reading.run tail next := by
  simp [Reading.run, step]

theorem run_refused {token : Token} (step : reading.step token = none) (tail : List Token) :
    Reading.run (token :: tail) reading = none := by
  simp [Reading.run, step]

-- A document never starts with a closing mark, so it can be the first item of an array.
theorem run_firstItem (j : Json) (stack : List Frame) (tail : List Token) :
    Reading.run (tokens j ++ tail) (.firstItem stack) = Reading.run (tokens j ++ tail) (.value (.array [] :: stack)) := by
  have first : ∃ token behind, tokens j = token :: behind ∧ token ≠ .closeArray := by
    cases j with
    | null => exact ⟨_, _, rfl, by decide⟩
    | bool b => exact ⟨_, _, rfl, nofun⟩
    | number n => exact ⟨_, _, rfl, nofun⟩
    | text t => exact ⟨_, _, rfl, nofun⟩
    | array items => cases items <;> exact ⟨_, _, rfl, nofun⟩
    | object fields => cases fields <;> exact ⟨_, _, rfl, nofun⟩
  obtain ⟨token, behind, starts, different⟩ := first
  simp [starts, Reading.run, Reading.step, different]

theorem put_last {fields : Fields} (ascending : Table.Ascending (fields ++ (key, value) :: more)) :
    Table.put key value fields = fields ++ [(key, value)] := by
  induction fields with
  | nil => rfl
  | cons field fields ih =>
    have later : (key, value) ∈ fields ++ (key, value) :: more := by simp
    have before : Text.precedes field.1 key = true := ascending.head later
    have notBefore := Text.precedes_asymm before
    have different := Text.precedes_ne before
    simp [Table.put, notBefore, Ne.symm different, ih ascending.tail]

theorem ite_within {a b depth : Nat} (whole : depth = max a b) (read : Option Reading) :
    (if a + height ≤ deepest then if b + height ≤ deepest then read else none else none) =
      if depth + height ≤ deepest then read else none := by
  subst whole
  by_cases left : a + height ≤ deepest
  · by_cases right : b + height ≤ deepest
    · rw [if_pos left, if_pos right, if_pos (by omega)]
    · rw [if_pos left, if_neg right, if_neg (by omega)]
  · rw [if_neg left, if_neg (by omega)]

theorem run_open {token : Token} {first : Reading} {inner : Nat} {read : Option Reading}
    (start : Reading.step token (.value stack) = if stack.length < deepest then some first else none)
    (behind : stack.length < deepest →
      Reading.run tail first = if inner + (stack.length + 1) ≤ deepest then read else none) :
    Reading.run (token :: tail) (.value stack) = if inner + 1 + stack.length ≤ deepest then read else none := by
  by_cases opened : stack.length < deepest
  · rw [if_pos opened] at start
    rw [run_step start, behind opened, Nat.add_right_comm, Nat.add_assoc]
  · rw [if_neg opened] at start
    rw [run_refused start, if_neg (by omega)]

-- The tokens of a document deliver it to the containers around it, as long as it is not too deep.
mutual
theorem run_tokens (j : Json) (stack : List Frame) (room : stack.length ≤ deepest) (tail : List Token) :
    Reading.run (tokens j ++ tail) (.value stack) =
      if j.depth + stack.length ≤ deepest then Reading.run tail (.deliver j.settled stack) else none := by
  match j with
  | .null | .bool b | .number n | .text t =>
    rw [if_pos (by simpa [depth] using room)]
    rfl
  | .array [] =>
    refine run_open rfl fun opened => ?_
    rw [itemsDepth, if_pos (by omega)]
    rfl
  | .array (item :: items) =>
    rw [tokens, List.cons_append, List.cons_append, List.append_assoc]
    refine run_open rfl fun opened => ?_
    have head := run_tokens item (.array [] :: stack) opened (itemTokens items ++ tail)
    have behind := run_itemTokens items [item.settled] stack opened tail
    rw [run_firstItem, head, Reading.deliver, behind]
    exact ite_within rfl _
  | .object [] =>
    refine run_open rfl fun opened => ?_
    rw [fieldsDepth, if_pos (by omega)]
    rfl
  | .object ((key, value) :: fields) =>
    rw [tokens, List.cons_append, List.cons_append, List.cons_append, List.cons_append, List.append_assoc]
    refine run_open rfl fun opened => ?_
    have head := run_tokens value (.object [] key :: stack) opened (fieldTokens fields ++ tail)
    have behind := run_fieldTokens fields (Table.put key value.settled []) stack opened tail
    refine Eq.trans head ?_
    rw [Reading.deliver, behind]
    exact ite_within rfl _
theorem run_itemTokens (items before : List Json) (stack : List Frame) (opened : stack.length < deepest)
    (tail : List Token) :
    Reading.run (itemTokens items ++ tail) (.afterItem before stack) =
      if itemsDepth items + (stack.length + 1) ≤ deepest then
        Reading.run tail (.deliver (.array (before.reverse ++ settledItems items)) stack)
      else none := by
  match items with
  | [] =>
    rw [itemsDepth, if_pos (by omega), settledItems, List.append_nil]
    rfl
  | item :: items =>
    have head := run_tokens item (.array before :: stack) opened (itemTokens items ++ tail)
    have behind := run_itemTokens items (item.settled :: before) stack opened tail
    rw [itemTokens, List.cons_append, List.cons_append, List.append_assoc]
    refine Eq.trans head ?_
    rw [Reading.deliver, behind, List.reverse_cons, List.append_assoc]
    exact ite_within rfl _
theorem run_fieldTokens (fields : List (Text × Json)) (before : Fields) (stack : List Frame)
    (opened : stack.length < deepest) (tail : List Token) :
    Reading.run (fieldTokens fields ++ tail) (.afterMember before stack) =
      if fieldsDepth fields + (stack.length + 1) ≤ deepest then
        Reading.run tail (.deliver (.object (settledMembers before fields)) stack)
      else none := by
  match fields with
  | [] =>
    rw [fieldsDepth, if_pos (by omega)]
    rfl
  | (key, value) :: fields =>
    have head := run_tokens value (.object before key :: stack) opened (fieldTokens fields ++ tail)
    have behind := run_fieldTokens fields (Table.put key value.settled before) stack opened tail
    rw [fieldTokens, List.cons_append, List.cons_append, List.cons_append, List.cons_append, List.append_assoc]
    refine Eq.trans head ?_
    rw [Reading.deliver, behind]
    exact ite_within rfl _
end

mutual
theorem settled_of_ordered (j : Json) (ordered : j.Ordered) : j.settled = j := by
  match j with
  | .null | .bool b | .number n | .text t => rfl
  | .array items => rw [settled, settledItems_of_ordered items ordered]
  | .object members => rw [settled, settledMembers_of_ordered members ordered.2 [] ordered.1, List.nil_append]
theorem settledItems_of_ordered (items : List Json) (ordered : ItemsOrdered items) : settledItems items = items := by
  match items with
  | [] => rfl
  | item :: items => rw [settledItems, settled_of_ordered item ordered.1, settledItems_of_ordered items ordered.2]
theorem settledMembers_of_ordered (members : List (Text × Json)) (ordered : FieldsOrdered members) (before : Fields)
    (ascending : Table.Ascending (before ++ members)) : settledMembers before members = before ++ members := by
  match members with
  | [] => rw [settledMembers, List.append_nil]
  | (key, value) :: members =>
    have later : Table.Ascending ((before ++ [(key, value)]) ++ members) := by simpa using ascending
    rw [settledMembers, settled_of_ordered value ordered.1, put_last ascending,
      settledMembers_of_ordered members ordered.2 _ later, List.append_assoc]
    rfl
end

theorem read?_render_settled (j : Json) : read? (render j) = if j.depth ≤ deepest then some j.settled else none := by
  have run := run_tokens j [] (Nat.zero_le _) []
  rw [List.append_nil, List.length_nil, Nat.add_zero] at run
  unfold read?
  simp only [tokens?_render, run]
  by_cases shallow : j.depth ≤ deepest
  · simp [shallow, Reading.run, Reading.deliver]
  · simp [shallow]

theorem read?_render (j : Json) (ordered : j.Ordered) : read? (render j) = if j.depth ≤ deepest then some j else none := by
  rw [read?_render_settled, settled_of_ordered j ordered]

def Fits (room : Nat) (j : Json) : Prop := j.Ordered ∧ j.depth ≤ room

theorem fits_array_iff {items : List Json} : Fits (room + 1) (.array items) ↔ ∀ item ∈ items, item.Fits room := by
  have each : ItemsOrdered items ∧ itemsDepth items ≤ room ↔ ∀ item ∈ items, item.Fits room := by
    induction items with
    | nil => simp [ItemsOrdered, itemsDepth]
    | cons item items ih =>
      rw [List.forall_mem_cons, ← ih, Fits, ItemsOrdered, itemsDepth, Nat.max_le]
      tauto
  rw [← each, Fits, Ordered, depth, Nat.add_le_add_iff_right]

theorem fits_object_iff {fields : Fields} :
    Fits (room + 1) (.object fields) ↔ Table.Ascending fields ∧ ∀ field ∈ fields, field.2.Fits room := by
  have each : FieldsOrdered fields ∧ fieldsDepth fields ≤ room ↔ ∀ field ∈ fields, field.2.Fits room := by
    induction fields with
    | nil => simp [FieldsOrdered, fieldsDepth]
    | cons field fields ih =>
      rw [List.forall_mem_cons, ← ih, Fits, FieldsOrdered, fieldsDepth, Nat.max_le]
      tauto
  rw [← each, Fits, Ordered, depth, Nat.add_le_add_iff_right, and_assoc]

def Frame.soFar : Frame → Json
  | .array before => .array before
  | .object fields _ => .object fields

def StackFits : List Frame → Prop
  | [] => True
  | frame :: stack => (∃ room, stack.length + room + 1 = deepest ∧ Fits (room + 1) frame.soFar) ∧ StackFits stack

def Reading.Sound : Reading → Prop
  | .value stack => StackFits stack
  | .firstItem stack => StackFits (.array [] :: stack)
  | .afterItem items stack => StackFits (.array items :: stack)
  | .firstKey stack => StackFits (.object [] [] :: stack)
  | .nextKey fields stack | .afterMember fields stack => StackFits (.object fields [] :: stack)
  | .afterKey fields key stack => StackFits (.object fields key :: stack)
  | .finished document => Fits deepest document

theorem deliver_sound {value : Json} (fits : StackFits stack) (height : stack.length + room = deepest)
    (inside : value.Fits room) : (Reading.deliver value stack).Sound := by
  cases stack with
  | nil =>
    rw [List.length_nil, Nat.zero_add] at height
    rw [height] at inside
    exact inside
  | cons frame stack =>
    obtain ⟨⟨outer, heights, frameFits⟩, below⟩ := fits
    have same : outer = room := by
      rw [List.length_cons] at height
      omega
    subst same
    cases frame with
    | array before =>
      refine ⟨⟨outer, heights, fits_array_iff.mpr ?_⟩, below⟩
      exact List.forall_mem_cons.mpr ⟨inside, fits_array_iff.mp frameFits⟩
    | object fields key =>
      obtain ⟨ascending, each⟩ := fits_object_iff.mp frameFits
      refine ⟨⟨outer, heights, fits_object_iff.mpr ⟨ascending.put key value, fun field member => ?_⟩⟩, below⟩
      rcases ascending.mem_put.mp member with rfl | ⟨old, _⟩
      · exact inside
      · exact each field old

theorem StackFits.height (fits : StackFits stack) : stack.length ≤ deepest := by
  cases stack with
  | nil => exact Nat.zero_le _
  | cons frame stack =>
    obtain ⟨⟨room, heights, _⟩, _⟩ := fits
    rw [List.length_cons]
    omega

theorem StackFits.opened {frame : Frame} (fits : StackFits stack) (room : stack.length < deepest)
    (empty : frame.soFar = .array [] ∨ frame.soFar = .object []) : StackFits (frame :: stack) := by
  refine ⟨⟨deepest - stack.length - 1, by omega, ?_⟩, fits⟩
  rcases empty with array | object
  · rw [array]
    exact fits_array_iff.mpr fun item member => nomatch member
  · rw [object]
    exact fits_object_iff.mpr ⟨Table.Ascending.nil, fun field member => nomatch member⟩

theorem start_sound {token : Token} (fits : StackFits stack) (started : Reading.start token stack = some next) :
    next.Sound := by
  have atom : ∀ value : Json, value.Ordered → value.depth = 0 → (Reading.deliver value stack).Sound := by
    intro value ordered flat
    exact deliver_sound fits (Nat.add_sub_cancel' fits.height) ⟨ordered, by omega⟩
  cases token with
  | null | bool b | number n | text t =>
    cases started
    exact atom _ trivial rfl
  | openArray =>
    simp only [Reading.start] at started
    split at started
    · rename_i room
      cases started
      exact fits.opened room (.inl rfl)
    · cases started
  | openObject =>
    simp only [Reading.start] at started
    split at started
    · rename_i room
      cases started
      exact fits.opened room (.inr rfl)
    · cases started
  | closeArray | closeObject | comma | colon => cases started

theorem close_sound {frame : Frame} (fits : StackFits (frame :: stack)) :
    (Reading.deliver frame.soFar stack).Sound := by
  obtain ⟨⟨room, heights, inside⟩, below⟩ := fits
  exact deliver_sound below (by omega) inside

theorem StackFits.reverse {items : List Json} (fits : StackFits (.array items :: stack)) :
    StackFits (.array items.reverse :: stack) := by
  obtain ⟨⟨room, heights, inside⟩, below⟩ := fits
  refine ⟨⟨room, heights, fits_array_iff.mpr fun item member => ?_⟩, below⟩
  exact fits_array_iff.mp inside item (List.mem_reverse.mp member)

theorem step_sound {token : Token} (sound : reading.Sound) (step : reading.step token = some next) : next.Sound := by
  cases reading with
  | value stack => exact start_sound sound step
  | firstItem stack =>
    simp only [Reading.step] at step
    split at step
    · cases step
      exact close_sound sound
    · exact start_sound sound step
  | afterItem items stack =>
    simp only [Reading.step] at step
    split at step
    · cases step
      exact sound
    · split at step
      · cases step
        exact close_sound sound.reverse
      · cases step
  | firstKey stack =>
    simp only [Reading.step] at step
    split at step
    · cases step
      exact close_sound sound
    · cases step
      exact sound
    · cases step
  | nextKey fields stack =>
    simp only [Reading.step] at step
    split at step
    · cases step
      exact sound
    · cases step
  | afterKey fields key stack =>
    simp only [Reading.step] at step
    split at step
    · cases step
      exact sound
    · cases step
  | afterMember fields stack =>
    simp only [Reading.step] at step
    split at step
    · cases step
      exact sound
    · split at step
      · cases step
        exact close_sound sound
      · cases step
  | finished document => cases step

theorem run_sound {ts : List Token} {final : Reading} (sound : reading.Sound) (run : Reading.run ts reading = some final) :
    final.Sound := by
  induction ts generalizing reading with
  | nil =>
    cases run
    exact sound
  | cons token ts ih =>
    simp only [Reading.run] at run
    split at run
    · cases run
    · rename_i step
      exact ih (step_sound sound step) run

-- Every document that has been read is ordered and not too deep, so it is read back when it
-- is printed.
theorem read?_fits (read : read? t = some j) : j.Fits deepest := by
  unfold read? at read
  split at read
  · cases read
  · split at read
    · rename_i run
      cases read
      have start : (Reading.value []).Sound := trivial
      exact run_sound start run
    · cases read

theorem read?_again (read : read? t = some j) : read? (render j) = some j := by
  obtain ⟨ordered, shallow⟩ := read?_fits read
  rw [read?_render j ordered, if_pos shallow]

end FieldGateway.Json
