import FieldGateway.OpcUa.NodeId
import FieldGateway.Proofs.Text.Base64
import FieldGateway.Proofs.Text.Blank
import FieldGateway.Proofs.Text.Natural
import FieldGateway.Proofs.Text.Pieces

-- Every node id that is read comes back from its text, and no two node ids have the same text.
namespace FieldGateway.OpcUa

namespace Guid

variable {g : Guid}

def run (g : Guid) : Text := g.digits.map fun d => Text.hexChar d.val

def groups (t : Text) : List Text :=
  [t.take 8, (t.drop 8).take 4, (t.drop 12).take 4, (t.drop 16).take 4, t.drop 20]

theorem text_eq (g : Guid) : g.text = Text.joinAll '-' (groups g.run) := rfl

theorem length_run (g : Guid) : g.run.length = 32 := by rw [run, List.length_map, g.full]

theorem flatten_groups (t : Text) : (groups t).flatten = t := by
  have fourth : (t.drop 16).take 4 ++ t.drop 20 = t.drop 16 := by simpa using List.take_append_drop 4 (t.drop 16)
  have third : (t.drop 12).take 4 ++ t.drop 16 = t.drop 12 := by simpa using List.take_append_drop 4 (t.drop 12)
  have second : (t.drop 8).take 4 ++ t.drop 12 = t.drop 8 := by simpa using List.take_append_drop 4 (t.drop 8)
  simp only [groups, List.flatten_cons, List.flatten_nil, List.append_nil]
  rw [fourth, third, second, List.take_append_drop]

theorem hexChar_parts (d : Fin 16) : digit? (Text.hexChar d.val) = some d ∧
    Text.hexChar d.val ≠ '-' ∧ Text.hexChar d.val ≠ '{' ∧ Text.hexChar d.val ≠ 'u' ∧
    Text.isBlank (Text.hexChar d.val) = false := by
  revert d
  decide

theorem ofDigits?_run (g : Guid) : ofDigits? g.run = some g := by
  have read : g.run.mapM digit? = some g.digits := by
    unfold run
    induction g.digits with
    | nil => rfl
    | cons d digits ih => simp [List.mapM_cons, hexChar_parts, ih]
  unfold ofDigits?
  simp [read, g.full]

theorem mem_run (member : c ∈ g.run) : ∃ d : Fin 16, c = Text.hexChar d.val := by
  obtain ⟨d, _, rfl⟩ := List.mem_map.mp member
  exact ⟨d, rfl⟩

theorem mem_groups (mine : piece ∈ groups t) (inside : c ∈ piece) : c ∈ t := by
  rw [← flatten_groups t]
  exact List.mem_flatten.mpr ⟨piece, mine, inside⟩

theorem mem_text (member : c ∈ g.text) : c = '-' ∨ ∃ d : Fin 16, c = Text.hexChar d.val := by
  by_cases dash : c = '-'
  · exact .inl dash
  · obtain ⟨piece, mine, inside⟩ := (Text.mem_joinAll_iff dash).mp member
    exact .inr (mem_run (mem_groups mine inside))

theorem ofGroups?_text (g : Guid) : ofGroups? g.text = some g := by
  have whole : ∀ piece ∈ groups g.run, '-' ∉ piece := by
    intro piece mine inside
    obtain ⟨d, dash⟩ := mem_run (mem_groups mine inside)
    exact (hexChar_parts d).2.1 dash.symm
  have cut := Text.splitAll_joinAll whole nofun
  have together := flatten_groups g.run
  have lengths := length_run g
  simp only [groups, List.flatten_cons, List.flatten_nil, List.append_nil] at together
  unfold ofGroups?
  rw [text_eq, cut, groups]
  simp only [List.length_take, List.length_drop, lengths, List.append_assoc, together, ofDigits?_run]
  rfl

theorem read?_text (g : Guid) : read? g.text = some g := by
  have unbraced : inBraces? g.text = none := by
    unfold inBraces?
    split
    · rename_i rest braced
      have member : '{' ∈ g.text := by
        rw [braced]
        exact List.mem_cons_self
      rcases mem_text member with dash | ⟨d, brace⟩
      · cases dash
      · exact absurd brace.symm (hexChar_parts d).2.2.1
    · rfl
  have unnamed : Text.after? "urn:uuid:" g.text = none := by
    cases named : Text.after? "urn:uuid:" g.text with
    | none => rfl
    | some rest =>
      have member : 'u' ∈ g.text := by
        rw [Text.after?_eq_some_iff.mp named]
        exact List.mem_append_left _ (by decide)
      rcases mem_text member with dash | ⟨d, letter⟩
      · cases dash
      · exact absurd letter.symm (hexChar_parts d).2.2.2.1
  have long : g.text.length ≠ 32 := by
    rw [text_eq]
    simp [groups, Text.joinAll, length_run]
  unfold read?
  simp only [unbraced, unnamed, if_neg long, ofGroups?_text]

end Guid

namespace Identifier

variable {i : Identifier}

-- The identifiers that a text can name: numbers have 32 bits, and since the text is trimmed no
-- string ends in a blank.
def Readable : Identifier → Prop
  | numeric n => n ≤ greatestNumber
  | text t => ∀ c ∈ t.getLast?, Text.isBlank c = false
  | guid _ | bytes _ => True

theorem read_readable (last : ∀ c ∈ t.getLast?, Text.isBlank c = false) (accepted : read t = .ok i) : i.Readable := by
  unfold read at accepted
  split at accepted
  · rename_i rest
    unfold readNumber at accepted
    split at accepted
    · rename_i number
      cases accepted
      exact Text.unsigned?_le number
    · cases accepted
  · rename_i rest
    cases accepted
    intro c member
    refine last c ?_
    rw [List.getLast?_cons, List.getLast?_cons, Option.mem_def.mp member]
    rfl
  · rename_i rest
    unfold readGuid at accepted
    split at accepted
    · cases accepted
      trivial
    · cases accepted
  · rename_i rest
    unfold readBytes at accepted
    split at accepted
    · cases accepted
      trivial
    · cases accepted
  · cases accepted

theorem read_written (readable : i.Readable) : read i.written = .ok i := by
  cases i with
  | numeric n =>
    change readNumber (Text.ofNat n) = .ok (.numeric n)
    rw [readNumber, Text.unsigned?_ofNat readable]
  | text t => rfl
  | guid g =>
    change readGuid g.text = .ok (.guid g)
    rw [readGuid, Guid.read?_text]
  | bytes bs =>
    change readBytes (Text.base64 bs) = .ok (.bytes bs)
    rw [readBytes, Text.ofBase64?_base64]

theorem last_marked (kind : Char) (solid : ∀ c ∈ body.getLast?, Text.isBlank c = false) :
    ∃ c, (kind :: '=' :: body).getLast? = some c ∧ Text.isBlank c = false := by
  rw [List.getLast?_cons, List.getLast?_cons]
  cases last : body.getLast? with
  | none => exact ⟨'=', rfl, by decide⟩
  | some c => exact ⟨c, rfl, solid c last⟩

theorem last_written (readable : i.Readable) : ∃ c, i.written.getLast? = some c ∧ Text.isBlank c = false := by
  cases i with
  | numeric n =>
    refine last_marked 'i' fun c last => ?_
    obtain ⟨d, _, rfl⟩ := List.mem_map.mp (List.mem_of_getLast? last)
    exact Text.isBlank_char d
  | text t => exact last_marked 's' readable
  | guid g =>
    refine last_marked 'g' fun c last => ?_
    rcases Guid.mem_text (List.mem_of_getLast? last) with rfl | ⟨d, rfl⟩
    · decide
    · exact (Guid.hexChar_parts d).2.2.2.2
  | bytes bs => exact last_marked 'b' fun c last => Text.isBlank_base64 (List.mem_of_getLast? last)

end Identifier

namespace NodeId

variable {n m : NodeId} {given other : Text}

structure Readable (n : NodeId) : Prop where
  bounded : n.namespaceIndex ≤ greatestNamespace
  identifier : n.identifier.Readable

theorem parse_eq_ok_iff : parse given = .ok n ↔ read given = .ok n := by
  unfold parse
  cases read given <;> simp

theorem map_ok_parts {identifier : Except NodeIdDefect Identifier} (accepted : identifier.map (NodeId.mk index) = .ok n) :
    ∃ i, identifier = .ok i ∧ n = ⟨index, i⟩ := by
  cases identifier with
  | error defect => cases accepted
  | ok i =>
    cases accepted
    exact ⟨i, rfl, rfl⟩

theorem read_readable (accepted : read given = .ok n) : n.Readable := by
  have solid : ∀ c ∈ (Text.trim given).getLast?, Text.isBlank c = false := fun c => Text.last_trim
  unfold read at accepted
  simp only at accepted
  split at accepted
  · obtain ⟨i, identifier, rfl⟩ := map_ok_parts accepted
    exact ⟨Nat.zero_le _, Identifier.read_readable solid identifier⟩
  · rename_i rest named
    rw [Text.after?_eq_some_iff.mp named] at solid
    split at accepted
    · cases accepted
    · rename_i index identifier cut
      rw [(Text.cutFirst?_eq_some_iff.mp cut).1] at solid
      unfold readNamespace at accepted
      split at accepted
      · cases accepted
      · rename_i m number
        split at number
        · rename_i bounded
          cases number
          obtain ⟨i, identified, rfl⟩ := map_ok_parts accepted
          refine ⟨Text.unsigned?_le bounded, Identifier.read_readable (fun c last => solid c ?_) identified⟩
          rw [List.getLast?_append, List.getLast?_append, List.getLast?_cons, Option.mem_def.mp last]
          rfl
        · cases number

theorem separator_notMem_ofNat (n : Nat) : ';' ∉ Text.ofNat n := by
  intro member
  obtain ⟨d, _, separator⟩ := List.mem_map.mp member
  have different : ∀ d : Digit, d.char ≠ ';' := by decide
  exact different d separator

theorem trim_text (readable : n.Readable) : Text.trim n.text = n.text := by
  refine Text.trim_solid ?_ ?_
  · intro c first
    cases first
    decide
  · intro c last
    obtain ⟨d, written, solid⟩ := Identifier.last_written readable.identifier
    unfold text at last
    rw [List.getLast?_append, written] at last
    cases last
    exact solid

theorem read_text (readable : n.Readable) : read n.text = .ok n := by
  have named : Text.after? "ns=" n.text = some (Text.ofNat n.namespaceIndex ++ ';' :: n.identifier.written) := by
    refine Text.after?_eq_some_iff.mpr ?_
    simp [text]
  have cut : Text.cutFirst? ';' (Text.ofNat n.namespaceIndex ++ ';' :: n.identifier.written) =
      some (Text.ofNat n.namespaceIndex, n.identifier.written) :=
    Text.cutFirst?_eq_some_iff.mpr ⟨rfl, separator_notMem_ofNat _⟩
  have index : readNamespace (Text.ofNat n.namespaceIndex) = .ok n.namespaceIndex := by
    rw [readNamespace, Text.unsigned?_ofNat readable.bounded]
  unfold read
  simp only [trim_text readable, named, cut, index, Identifier.read_written readable.identifier]
  rfl

theorem parsed_iff_readable : (∃ given, parse given = .ok n) ↔ n.Readable := by
  constructor
  · rintro ⟨given, accepted⟩
    exact read_readable (parse_eq_ok_iff.mp accepted)
  · intro readable
    exact ⟨n.text, parse_eq_ok_iff.mpr (read_text readable)⟩

-- The text of a node id that was read is read as the same node id, and it is the text of no other.
theorem text_identifies (accepted : parse given = .ok n) :
    parse n.text = .ok n ∧ ∀ other m, parse other = .ok m → (n = m ↔ n.text = m.text) := by
  have again : ∀ other m, parse other = .ok m → parse m.text = .ok m := fun other m also =>
    parse_eq_ok_iff.mpr (read_text (parsed_iff_readable.mp ⟨other, also⟩))
  refine ⟨again given n accepted, fun other m also => ⟨congrArg text, fun same => ?_⟩⟩
  have first := again given n accepted
  rw [same, again other m also] at first
  exact (Except.ok.inj first).symm

theorem text_identifies_spellings : ∃ string guid : NodeId,
    parse " ns=+2;s= a;b=c\t" = .ok string ∧ parse string.text = .ok string ∧
    parse "g=\x7b550E8400-E29B-41D4-A716-446655440000\x7d" = .ok guid ∧
    parse "ns=00;g=550e8400e29b41d4a716446655440000" = .ok guid ∧ parse guid.text = .ok guid ∧
    string.text ≠ guid.text := by
  let string : NodeId := ⟨2, .text " a;b=c"⟩
  let guid : NodeId := ⟨0, .guid ⟨[5, 5, 0, 14, 8, 4, 0, 0, 14, 2, 9, 11, 4, 1, 13, 4, 10, 7, 1, 6, 4, 4, 6, 6, 5, 5, 4, 4,
    0, 0, 0, 0], rfl⟩⟩
  have named : parse " ns=+2;s= a;b=c\t" = .ok string := rfl
  have braced : parse "g=\x7b550E8400-E29B-41D4-A716-446655440000\x7d" = .ok guid := rfl
  have bare : parse "ns=00;g=550e8400e29b41d4a716446655440000" = .ok guid := rfl
  obtain ⟨again, others⟩ := text_identifies named
  refine ⟨string, guid, named, again, braced, bare, (text_identifies bare).1, ?_⟩
  rw [ne_eq, ← others _ guid braced]
  exact fun same => absurd (congrArg namespaceIndex same) (by decide)

end NodeId
end FieldGateway.OpcUa
