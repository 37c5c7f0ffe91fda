import FieldGateway.Proofs.Json.Document

-- What the reader takes for a document: the tokens of one, with its members in the order in which
-- they are written, and not too deep. What it keeps of it is settled.
namespace FieldGateway.Json

variable {stack : List Frame} {reading final : Reading} {document : Json} {ts tail : List Token}

theorem run_cons {token : Token} (ran : Reading.run (token :: ts) reading = some final) :
    ∃ next, reading.step token = some next ∧ Reading.run ts next = some final := by
  unfold Reading.run at ran
  split at ran
  · cases ran
  · rename_i next step
    exact ⟨next, step, ran⟩

def BeginsWith (ts : List Token) (stack : List Frame) (document : Json) : Prop :=
  ∃ j tail, ts = tokens j ++ tail ∧ j.depth + stack.length ≤ deepest ∧
    Reading.run tail (.deliver j.settled stack) = some (.finished document)

def GoesOnWithItems (ts : List Token) (before : List Json) (stack : List Frame) (document : Json) : Prop :=
  ∃ items tail, ts = itemTokens items ++ tail ∧ itemsDepth items + (stack.length + 1) ≤ deepest ∧
    Reading.run tail (.deliver (.array (before.reverse ++ settledItems items)) stack) = some (.finished document)

def GoesOnWithMembers (ts : List Token) (before : Fields) (stack : List Frame) (document : Json) : Prop :=
  ∃ members tail, ts = fieldTokens members ++ tail ∧ fieldsDepth members + (stack.length + 1) ≤ deepest ∧
    Reading.run tail (.deliver (.object (settledMembers before members)) stack) = some (.finished document)

theorem begins_atom {token : Token} {j : Json} (alone : tokens j = [token]) (flat : j.depth = 0)
    (room : stack.length ≤ deepest) (ran : Reading.run ts (.deliver j.settled stack) = some (.finished document)) :
    BeginsWith (token :: ts) stack document :=
  ⟨j, ts, by rw [alone]; rfl, by omega, ran⟩

theorem run_firstItem_parts (ran : Reading.run ts (.firstItem stack) = some (.finished document)) :
    (∃ rest, ts = .closeArray :: rest ∧ Reading.run rest (.deliver (.array []) stack) = some (.finished document)) ∨
    Reading.run ts (.value (.array [] :: stack)) = some (.finished document) := by
  cases ts with
  | nil => cases ran
  | cons token rest =>
    obtain ⟨next, step, ran⟩ := run_cons ran
    simp only [Reading.step] at step
    split at step
    · rename_i closes
      cases step
      exact .inl ⟨rest, by rw [closes], ran⟩
    · have started : Reading.step token (.value (.array [] :: stack)) = some next := step
      exact .inr ((run_step started rest).trans ran)

theorem run_afterKey_parts {fields : Fields}
    (ran : Reading.run ts (.afterKey fields key stack) = some (.finished document)) :
    ∃ rest, ts = .colon :: rest ∧ Reading.run rest (.value (.object fields key :: stack)) = some (.finished document) := by
  cases ts with
  | nil => cases ran
  | cons token rest =>
    obtain ⟨next, step, ran⟩ := run_cons ran
    simp only [Reading.step] at step
    split at step
    · rename_i colon
      cases step
      exact ⟨rest, by rw [colon], ran⟩
    · cases step

theorem run_nextKey_parts {fields : Fields}
    (ran : Reading.run ts (.nextKey fields stack) = some (.finished document)) :
    ∃ key rest, ts = .text key :: .colon :: rest ∧
      Reading.run rest (.value (.object fields key :: stack)) = some (.finished document) := by
  cases ts with
  | nil => cases ran
  | cons token rest =>
    obtain ⟨next, step, ran⟩ := run_cons ran
    simp only [Reading.step] at step
    split at step
    · cases step
      obtain ⟨behind, rfl, ran⟩ := run_afterKey_parts ran
      exact ⟨_, behind, rfl, ran⟩
    · cases step

theorem run_firstKey_parts (ran : Reading.run ts (.firstKey stack) = some (.finished document)) :
    (∃ rest, ts = .closeObject :: rest ∧ Reading.run rest (.deliver (.object []) stack) = some (.finished document)) ∨
    ∃ key rest, ts = .text key :: .colon :: rest ∧
      Reading.run rest (.value (.object [] key :: stack)) = some (.finished document) := by
  cases ts with
  | nil => cases ran
  | cons token rest =>
    obtain ⟨next, step, ran⟩ := run_cons ran
    simp only [Reading.step] at step
    split at step
    · cases step
      exact .inl ⟨rest, rfl, ran⟩
    · cases step
      obtain ⟨behind, rfl, ran⟩ := run_afterKey_parts ran
      exact .inr ⟨_, behind, rfl, ran⟩
    · cases step

theorem run_afterItem_parts {before : List Json}
    (ran : Reading.run ts (.afterItem before stack) = some (.finished document)) :
    (∃ rest, ts = .closeArray :: rest ∧
      Reading.run rest (.deliver (.array before.reverse) stack) = some (.finished document)) ∨
    ∃ rest, ts = .comma :: rest ∧ Reading.run rest (.value (.array before :: stack)) = some (.finished document) := by
  cases ts with
  | nil => cases ran
  | cons token rest =>
    obtain ⟨next, step, ran⟩ := run_cons ran
    simp only [Reading.step] at step
    split at step
    · rename_i comma
      cases step
      exact .inr ⟨rest, by rw [comma], ran⟩
    · split at step
      · rename_i closes
        cases step
        exact .inl ⟨rest, by rw [closes], ran⟩
      · cases step

theorem run_afterMember_parts {fields : Fields}
    (ran : Reading.run ts (.afterMember fields stack) = some (.finished document)) :
    (∃ rest, ts = .closeObject :: rest ∧
      Reading.run rest (.deliver (.object fields) stack) = some (.finished document)) ∨
    ∃ key rest, ts = .comma :: .text key :: .colon :: rest ∧
      Reading.run rest (.value (.object fields key :: stack)) = some (.finished document) := by
  cases ts with
  | nil => cases ran
  | cons token rest =>
    obtain ⟨next, step, ran⟩ := run_cons ran
    simp only [Reading.step] at step
    split at step
    · rename_i comma
      cases step
      obtain ⟨key, behind, rfl, ran⟩ := run_nextKey_parts ran
      exact .inr ⟨key, behind, by rw [comma], ran⟩
    · split at step
      · rename_i closes
        cases step
        exact .inl ⟨rest, by rw [closes], ran⟩
      · cases step

mutual
theorem beginsWith (ts : List Token) (stack : List Frame) (room : stack.length ≤ deepest)
    (ran : Reading.run ts (.value stack) = some (.finished document)) : BeginsWith ts stack document := by
  match ts with
  | [] => cases ran
  | token :: rest =>
    obtain ⟨next, step, ran⟩ := run_cons ran
    cases token with
    | null => cases step; exact begins_atom (j := .null) rfl rfl room ran
    | bool b => cases step; exact begins_atom (j := .bool b) rfl rfl room ran
    | number n => cases step; exact begins_atom (j := .number n) rfl rfl room ran
    | text t => cases step; exact begins_atom (j := .text t) rfl rfl room ran
    | openArray =>
      simp only [Reading.step, Reading.start] at step
      split at step
      · rename_i opened
        cases step
        rcases run_firstItem_parts ran with ⟨behind, rfl, ran⟩ | ran
        · exact ⟨.array [], behind, rfl, by simp only [depth, itemsDepth]; omega, ran⟩
        · obtain ⟨item, tail, rfl, shallow, ran⟩ := beginsWith rest (.array [] :: stack) opened ran
          obtain ⟨items, tail, rfl, low, ran⟩ := goesOnWithItems tail [item.settled] stack opened ran
          refine ⟨.array (item :: items), tail, by simp [tokens], ?_, ran⟩
          rw [List.length_cons] at shallow
          simp only [depth, itemsDepth]
          omega
      · cases step
    | openObject =>
      simp only [Reading.step, Reading.start] at step
      split at step
      · rename_i opened
        cases step
        rcases run_firstKey_parts ran with ⟨behind, rfl, ran⟩ | ⟨key, behind, rfl, ran⟩
        · exact ⟨.object [], behind, rfl, by simp only [depth, fieldsDepth]; omega, ran⟩
        · obtain ⟨value, tail, rfl, shallow, ran⟩ := beginsWith behind (.object [] key :: stack) opened ran
          obtain ⟨members, tail, rfl, low, ran⟩ := goesOnWithMembers tail (Table.put key value.settled []) stack opened ran
          refine ⟨.object ((key, value) :: members), tail, by simp [tokens], ?_, ran⟩
          rw [List.length_cons] at shallow
          simp only [depth, fieldsDepth]
          omega
      · cases step
    | closeArray | closeObject | comma | colon => cases step
termination_by ts.length
theorem goesOnWithItems (ts : List Token) (before : List Json) (stack : List Frame) (opened : stack.length < deepest)
    (ran : Reading.run ts (.afterItem before stack) = some (.finished document)) :
    GoesOnWithItems ts before stack document := by
  rcases run_afterItem_parts ran with ⟨rest, rfl, closed⟩ | ⟨rest, rfl, next⟩
  · exact ⟨[], rest, rfl, by simp only [itemsDepth]; omega, by simpa [settledItems] using closed⟩
  · obtain ⟨item, tail, rfl, shallow, ran⟩ := beginsWith rest (.array before :: stack) opened next
    obtain ⟨items, tail, rfl, low, ran⟩ := goesOnWithItems tail (item.settled :: before) stack opened ran
    refine ⟨item :: items, tail, by simp [itemTokens], ?_, by simpa [settledItems] using ran⟩
    rw [List.length_cons] at shallow
    simp only [itemsDepth]
    omega
termination_by ts.length
theorem goesOnWithMembers (ts : List Token) (before : Fields) (stack : List Frame) (opened : stack.length < deepest)
    (ran : Reading.run ts (.afterMember before stack) = some (.finished document)) :
    GoesOnWithMembers ts before stack document := by
  rcases run_afterMember_parts ran with ⟨rest, rfl, closed⟩ | ⟨key, rest, rfl, next⟩
  · exact ⟨[], rest, rfl, by simp only [fieldsDepth]; omega, closed⟩
  · obtain ⟨value, tail, rfl, shallow, ran⟩ := beginsWith rest (.object before key :: stack) opened next
    obtain ⟨members, tail, rfl, low, ran⟩ := goesOnWithMembers tail (Table.put key value.settled before) stack opened ran
    refine ⟨(key, value) :: members, tail, by simp [fieldTokens], ?_, ran⟩
    rw [List.length_cons] at shallow
    simp only [fieldsDepth]
    omega
termination_by ts.length
end

theorem run_delivered {j : Json} : Reading.run ts (.deliver j []) = some (.finished document) ↔ ts = [] ∧ document = j := by
  cases ts with
  | nil => simp [Reading.run, Reading.deliver, eq_comm]
  | cons token rest => simp [Reading.run, Reading.deliver, Reading.step]

theorem read?_eq_some_iff {t : Text} :
    read? t = some document ↔ ∃ j, tokens? t = some (tokens j) ∧ j.depth ≤ deepest ∧ document = j.settled := by
  constructor
  · intro read
    unfold read? at read
    split at read
    · cases read
    · rename_i ts spelled
      split at read
      · rename_i ran
        cases read
        obtain ⟨j, tail, rfl, shallow, ended⟩ := beginsWith ts [] (Nat.zero_le _) ran
        obtain ⟨rfl, rfl⟩ := run_delivered.mp ended
        rw [List.append_nil] at spelled
        exact ⟨j, spelled, shallow, rfl⟩
      · cases read
  · rintro ⟨j, spelled, shallow, rfl⟩
    have run := run_tokens j [] (Nat.zero_le _) []
    rw [List.append_nil, List.length_nil, Nat.add_zero, if_pos shallow, run_delivered.mpr ⟨rfl, rfl⟩] at run
    simp [read?, spelled, run]

theorem read?_object_iff {t : Text} {fields : Fields} : read? t = some (.object fields) ↔
    ∃ members, tokens? t = some (tokens (.object members)) ∧ (object members).depth ≤ deepest ∧
      fields = settledMembers [] members := by
  rw [read?_eq_some_iff]
  constructor
  · rintro ⟨j, spelled, shallow, settles⟩
    cases j with
    | object members =>
      rw [settled] at settles
      exact ⟨members, spelled, shallow, Json.object.inj settles⟩
    | null | bool | number | text | array => cases settles
  · rintro ⟨members, spelled, shallow, rfl⟩
    exact ⟨.object members, spelled, shallow, rfl⟩

def Last (members : List (Text × Json)) (key : Text) (value : Json) : Prop :=
  ∃ before after, members = before ++ (key, value) :: after ∧ ∀ member ∈ after, member.1 ≠ key

theorem last_cons_iff {first : Json} : Last ((name, first) :: members) key value ↔
    Last members key value ∨ (name = key ∧ first = value ∧ ∀ member ∈ members, member.1 ≠ key) := by
  constructor
  · rintro ⟨before, after, split, others⟩
    cases before with
    | nil =>
      obtain ⟨same, rfl⟩ := List.cons.inj split
      cases same
      exact .inr ⟨rfl, rfl, others⟩
    | cons member before =>
      obtain ⟨-, rfl⟩ := List.cons.inj split
      exact .inl ⟨before, after, rfl, others⟩
  · rintro (⟨before, after, rfl, others⟩ | ⟨rfl, rfl, others⟩)
    · exact ⟨(name, first) :: before, after, rfl, others⟩
    · exact ⟨[], members, rfl, others⟩

theorem not_last_nil : ¬ Last [] key value := by
  rintro ⟨before, after, split, -⟩
  simp at split

theorem settledMembers_ascending {before : Fields} (ascending : Table.Ascending before) :
    Table.Ascending (settledMembers before members) := by
  induction members generalizing before with
  | nil => exact ascending
  | cons member members ih => exact ih (ascending.put member.1 member.2.settled)

theorem get?_settledMembers {before : Fields} :
    Table.get? key (settledMembers before members) = some value ↔
      (∃ written, Last members key written ∧ value = written.settled) ∨
        (Table.get? key before = some value ∧ ∀ member ∈ members, member.1 ≠ key) := by
  induction members generalizing before with
  | nil => simp [settledMembers, not_last_nil]
  | cons member members ih =>
    obtain ⟨name, first⟩ := member
    rw [settledMembers, ih, Table.get?_put]
    simp only [last_cons_iff, List.forall_mem_cons]
    by_cases same : key = name
    · subst same
      simp only [if_true, Option.some.injEq, true_and, ne_eq, not_true_eq_false, false_and, and_false, or_false]
      constructor
      · rintro (⟨written, last, rfl⟩ | ⟨rfl, others⟩)
        · exact ⟨written, .inl last, rfl⟩
        · exact ⟨first, .inr ⟨rfl, others⟩, rfl⟩
      · rintro ⟨written, last | ⟨rfl, others⟩, rfl⟩
        · exact .inl ⟨written, last, rfl⟩
        · exact .inr ⟨rfl, others⟩
    · simp [same, Ne.symm same]

theorem mem_settledMembers :
    (key, value) ∈ settledMembers [] members ↔ ∃ written, Last members key written ∧ value = written.settled := by
  have ascending : Table.Ascending (settledMembers [] members) := settledMembers_ascending .nil
  rw [← ascending.get?_eq_some_iff, get?_settledMembers]
  simp [Table.get?]

end FieldGateway.Json
