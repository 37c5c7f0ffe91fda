import FieldGateway.Proofs.Table
import FieldGateway.Proofs.Toml.Token
import FieldGateway.Toml.Document

-- A document only grows from line to line: what a line has given to a key stays, and nothing is
-- given twice.
namespace FieldGateway.Toml

inductive Place where
  | key (name : Text)
  | item (number : Nat)

def at? : List Place → Toml → Option Toml
  | [], x => some x
  | .key name :: path, .table entries => (Table.get? name entries).bind (at? path)
  | .item number :: path, .list items => items[number]?.bind (at? path)
  | _, _ => none

def IsScalar : Toml → Prop
  | .table _ | .list _ => False
  | _ => True

theorem get?_entriesToToml (key : Text) (entries : Entries) :
    Table.get? key (entriesToToml entries) = (Table.get? key entries).map Node.toToml := by
  induction entries with
  | nil => rfl
  | cons entry rest ih =>
    obtain ⟨name, node⟩ := entry
    simp only [entriesToToml, Table.get?]
    split
    · rfl
    · exact ih

theorem at?_key (name : Text) (path : List Place) (origin : Origin) (entries : Entries) :
    (Node.table origin entries).toToml.at? (.key name :: path) =
      (Table.get? name entries).bind fun node => node.toToml.at? path := by
  change (Table.get? name (entriesToToml entries)).bind _ = _
  rw [get?_entriesToToml]
  cases Table.get? name entries <;> rfl

theorem at?_item (number : Nat) (path : List Place) (earlier : List Toml) (last : Entries) :
    (Node.tables earlier last).toToml.at? (.item number :: path) =
      (earlier ++ [.table (entriesToToml last)])[number]?.bind fun item => item.at? path := rfl

-- Tables gain keys, lists of tables gain tables at their end, and their last table may gain keys
-- until the next one begins.
inductive Node.Grows : Node → Node → Prop where
  | same (a : Node) : Grows a a
  | table {entries : Entries} (later : Text → Node)
      (kept : ∀ key node, Table.get? key entries = some node → Table.get? key entries' = some (later key))
      (grown : ∀ key node, Table.get? key entries = some node → Grows node (later key)) :
      Grows (.table origin entries) (.table origin' entries')
  | tables (inside : Grows (.table .header last) (.table .header last')) :
      Grows (.tables earlier last) (.tables earlier last')
  | next (inside : Grows (.table .header last) (.table .header done)) :
      Grows (.tables earlier last) (.tables (earlier ++ .table (entriesToToml done) :: more) last')

theorem getElem?_snoc {xs : List α} (there : (xs ++ [x])[n]? = some y) :
    n < xs.length ∧ xs[n]? = some y ∨ n = xs.length ∧ y = x := by
  rcases Nat.lt_trichotomy n xs.length with before | rfl | behind
  · rw [List.getElem?_append_left before] at there
    exact .inl ⟨before, there⟩
  · rw [List.getElem?_concat_length] at there
    exact .inr ⟨rfl, (Option.some.inj there).symm⟩
  · rw [List.getElem?_eq_none (by simpa using Nat.succ_le_of_lt behind)] at there
    cases there

namespace Node.Grows

variable {a b c node : Node} {entries entries' : Entries} {key : Text}

theorem trans (first : Grows a b) (second : Grows b c) : Grows a c := by
  induction first generalizing c with
  | same a => exact second
  | table later kept grown ih =>
    cases second with
    | same => exact .table later kept grown
    | table after kept' grown' =>
      refine .table after (fun key node found => kept' key _ (kept key node found)) fun key node found => ?_
      exact ih key node found (grown' key _ (kept key node found))
  | tables inside ih =>
    cases second with
    | same => exact .tables inside
    | tables inside' => exact .tables (ih inside')
    | next inside' => exact .next (ih inside')
  | next inside ih =>
    cases second with
    | same => exact .next inside
    | tables => exact .next inside
    | next =>
      rw [List.append_assoc]
      exact .next inside

theorem origin (origin origin' : Origin) (entries : Entries) : Grows (.table origin entries) (.table origin' entries) :=
  .table (fun key => (Table.get? key entries).getD (.value (.bool true)))
    (fun key node found => by rw [found]; rfl)
    (fun key node found => by rw [found]; exact .same node)

theorem put (grown : ∀ old, Table.get? key entries = some old → Grows old node) (origin origin' : Origin) :
    Grows (.table origin entries) (.table origin' (Table.put key node entries)) := by
  refine .table (fun name => if name = key then node else (Table.get? name entries).getD node) ?_ ?_
  · intro name old found
    rw [Table.get?_put]
    split
    · rfl
    · rw [found]
      rfl
  · intro name old found
    split
    · rename_i same
      exact grown old (same ▸ found)
    · rw [found]
      exact .same old

theorem at? (grows : Grows a b) (scalar : IsScalar x) (found : a.toToml.at? path = some x) :
    b.toToml.at? path = some x := by
  induction grows generalizing path with
  | same => exact found
  | table later kept grown ih =>
    match path with
    | [] =>
      cases found
      exact absurd scalar id
    | .item number :: path => cases found
    | .key name :: path =>
      rw [at?_key] at found ⊢
      obtain ⟨node, there, inside⟩ := Option.bind_eq_some_iff.mp found
      rw [kept name node there]
      exact ih name node there inside
  | @tables last last' earlier inside ih =>
    match path with
    | [] =>
      cases found
      exact absurd scalar id
    | .key name :: path => cases found
    | .item number :: path =>
      rw [at?_item] at found ⊢
      obtain ⟨item, there, within⟩ := Option.bind_eq_some_iff.mp found
      rcases getElem?_snoc there with ⟨before, there⟩ | ⟨rfl, rfl⟩
      · rw [List.getElem?_append_left before, there]
        exact within
      · rw [List.getElem?_concat_length]
        exact ih within
  | @next last done earlier more last' inside ih =>
    match path with
    | [] =>
      cases found
      exact absurd scalar id
    | .key name :: path => cases found
    | .item number :: path =>
      rw [at?_item] at found ⊢
      obtain ⟨item, there, within⟩ := Option.bind_eq_some_iff.mp found
      rw [List.append_assoc]
      rcases getElem?_snoc there with ⟨before, there⟩ | ⟨rfl, rfl⟩
      · rw [List.getElem?_append_left before, there]
        exact within
      · rw [List.cons_append, List.getElem?_append_right (Nat.le_refl _), Nat.sub_self]
        exact ih within

end Node.Grows

def Entries.Grow (entries entries' : Entries) : Prop := Node.Grows (.table .header entries) (.table .header entries')

namespace Entries

variable {entries entries' : Entries} {key : Text} {path : List Text}

theorem Grow.table (grow : Grow entries entries') (origin origin' : Origin) :
    Node.Grows (.table origin entries) (.table origin' entries') :=
  (Node.Grows.origin origin .header entries).trans (grow.trans (.origin .header origin' entries'))

theorem define_grow (defined : entries.define value path = some entries') : Grow entries entries' := by
  induction path generalizing entries entries' with
  | nil => cases defined
  | cons key path ih =>
    cases path with
    | nil =>
      unfold define at defined
      split at defined
      · rename_i absent
        cases defined
        exact .put (by simp [absent]) _ _
      · cases defined
    | cons next path =>
      unfold define at defined
      cases found : Table.get? key entries with
      | none =>
        simp only [found] at defined
        obtain ⟨inner, -, rfl⟩ := Option.map_eq_some_iff.mp defined
        exact .put (by simp [found]) _ _
      | some node =>
        cases node with
        | value | tables => simp [found] at defined
        | table origin inner =>
          cases origin with
          | implied | header => simp [found] at defined
          | dotted =>
            simp only [found] at defined
            obtain ⟨later, further, rfl⟩ := Option.map_eq_some_iff.mp defined
            refine .put ?_ _ _
            intro old there
            cases found.symm.trans there
            exact (ih further).table _ _

theorem define_gives (defined : entries.define value path = some entries') :
    (Toml.table (entriesToToml entries)).at? (path.map .key) = none ∧
      (Toml.table (entriesToToml entries')).at? (path.map .key) = some value := by
  induction path generalizing entries entries' with
  | nil => cases defined
  | cons key path ih =>
    have before := at?_key key (path.map .key) .header entries
    have behind := at?_key key (path.map .key) .header entries'
    change (Toml.table _).at? _ = _ at before behind
    rw [List.map_cons, before, behind]
    cases path with
    | nil =>
      unfold define at defined
      split at defined
      · rename_i absent
        cases defined
        rw [absent, Table.get?_put, if_pos rfl]
        exact ⟨rfl, rfl⟩
      · cases defined
    | cons next path =>
      unfold define at defined
      cases found : Table.get? key entries with
      | none =>
        simp only [found] at defined
        obtain ⟨inner, further, rfl⟩ := Option.map_eq_some_iff.mp defined
        rw [Table.get?_put, if_pos rfl]
        exact ⟨rfl, (ih further).2⟩
      | some node =>
        cases node with
        | value | tables => simp [found] at defined
        | table origin inner =>
          cases origin with
          | implied | header => simp [found] at defined
          | dotted =>
            simp only [found] at defined
            obtain ⟨later, further, rfl⟩ := Option.map_eq_some_iff.mp defined
            rw [Table.get?_put, if_pos rfl]
            exact ih further

theorem change_grow {f : Entries → Option Entries} (grows : ∀ {entries entries'}, f entries = some entries' → Grow entries entries')
    (changed : entries.change f path = some entries') : Grow entries entries' := by
  induction path generalizing entries entries' with
  | nil => exact grows changed
  | cons key path ih =>
    unfold change at changed
    cases found : Table.get? key entries with
    | none =>
      simp only [found] at changed
      obtain ⟨inner, -, rfl⟩ := Option.map_eq_some_iff.mp changed
      exact .put (by simp [found]) _ _
    | some node =>
      have grown : ∀ {later : Node}, Node.Grows node later → Grow entries (Table.put key later entries) := by
        intro later grows
        refine .put ?_ _ _
        intro old there
        cases found.symm.trans there
        exact grows
      cases node with
      | value => simp [found] at changed
      | tables earlier last =>
        simp only [found] at changed
        obtain ⟨later, further, rfl⟩ := Option.map_eq_some_iff.mp changed
        exact grown (.tables (ih further))
      | table origin inner =>
        cases origin with
        | dotted => simp [found] at changed
        | implied | header =>
          simp only [found] at changed
          obtain ⟨later, further, rfl⟩ := Option.map_eq_some_iff.mp changed
          exact grown ((ih further).table _ _)

theorem openTable_grow (opened : openTable key entries = some entries') : Grow entries entries' := by
  unfold openTable at opened
  split at opened
  · rename_i absent
    cases opened
    exact .put (by simp [absent]) _ _
  · rename_i inner found
    cases opened
    refine .put ?_ _ _
    intro old there
    cases found.symm.trans there
    exact .origin _ _ inner
  · cases opened

theorem openNext_grow (opened : openNext key entries = some entries') : Grow entries entries' := by
  unfold openNext at opened
  split at opened
  · rename_i absent
    cases opened
    exact .put (by simp [absent]) _ _
  · rename_i earlier last found
    cases opened
    refine .put ?_ _ _
    intro old there
    cases found.symm.trans there
    exact .next (.same _)
  · cases opened

end Entries

variable {d d' : Draft} {tokens rest : List Token}

theorem Draft.open_grow {way : List Text} (opened : d.open repeated way = some d') : Entries.Grow d.entries d'.entries := by
  unfold Draft.open at opened
  split at opened
  · cases opened
  · obtain ⟨entries, changed, rfl⟩ := Option.map_eq_some_iff.mp opened
    refine Entries.change_grow ?_ changed
    intro before after added
    cases repeated with
    | false => exact Entries.openTable_grow added
    | true => exact Entries.openNext_grow added

theorem line?_grow (read : line? d tokens = some (d', rest)) : Entries.Grow d.entries d'.entries := by
  unfold line? at read
  split at read
  · split at read
    · cases read
    · obtain ⟨later, opened, parts⟩ := Option.map_eq_some_iff.mp read
      cases parts
      exact Draft.open_grow opened
  · split at read
    · split at read
      · cases read
      · obtain ⟨entries, changed, parts⟩ := Option.map_eq_some_iff.mp read
        cases parts
        exact Entries.change_grow Entries.define_grow changed
    · cases read

theorem lines?_grow (read : lines? fuel d tokens = some d') : Entries.Grow d.entries d'.entries := by
  induction fuel generalizing d tokens with
  | zero => cases read
  | succ fuel ih =>
    unfold lines? at read
    split at read
    · cases read
      exact .same _
    · split at read
      · cases read
      · rename_i line
        split at read
        · cases read
        · exact (line?_grow line).trans (ih read)

def Draft.document (d : Draft) : Toml := .table (entriesToToml d.entries)

-- What has once been given, no later line takes back.
theorem lines?_keeps (read : lines? fuel d tokens = some d') {path : List Place} {x : Toml} (scalar : IsScalar x)
    (given : d.document.at? path = some x) : d'.document.at? path = some x :=
  (lines?_grow read).at? scalar given

section Flat

def written (entries : List (Text × Text)) : Text :=
  entries.flatMap fun (key, value) => Json.quotedText key ++ '=' :: (Json.quotedText value ++ ['\n'])

def flatTokens (entries : List (Text × Text)) : List Token :=
  entries.flatMap fun (key, value) => [.text key false, .equals, .text value false, .newline]

theorem length_flatTokens (entries : List (Text × Text)) : (flatTokens entries).length = 4 * entries.length := by
  induction entries with
  | nil => rfl
  | cons entry entries ih =>
    change (flatTokens entries).length + 4 = _
    rw [ih, List.length_cons]
    omega

def Kept (t : Text) : Prop := ∀ c ∈ t, c.toNat ≠ 127

variable {entries : List (Text × Text)}

theorem tokensIn_written (kept : ∀ entry ∈ entries, Kept entry.1 ∧ Kept entry.2) :
    tokensIn (written entries) = some (flatTokens entries) := by
  induction entries with
  | nil => rfl
  | cons entry entries ih =>
    obtain ⟨key, value⟩ := entry
    rw [List.forall_mem_cons] at kept
    obtain ⟨⟨first, second⟩, others⟩ := kept
    have shape : written ((key, value) :: entries) =
        Json.quotedText key ++ '=' :: (Json.quotedText value ++ '\n' :: written entries) := by
      simp [written]
    rw [shape, tokensIn_quotedText first (by simp), tokensIn_next (show next? '=' _ = some (.equals, _) from rfl),
      tokensIn_quotedText second (by simp), tokensIn_next (show next? '\n' _ = some (.newline, _) from rfl), ih others]
    rfl

def gather (entries : List (Text × Text)) (start : Entries) : Entries :=
  entries.foldl (fun table entry => Table.put entry.1 (.value (.text entry.2)) table) start

theorem line?_flat {start : Entries} (absent : Table.get? key start = none) (value : Text) (rest : List Token) :
    line? ⟨start, []⟩ (.text key false :: .equals :: .text value false :: .newline :: rest) =
      some (⟨Table.put key (.value (.text value)) start, []⟩, .newline :: rest) := by
  have path : ∀ fuel, path? (fuel + 1) (.text key false :: .equals :: .text value false :: .newline :: rest) =
      some ([key], .equals :: .text value false :: .newline :: rest) := fun _ => rfl
  have read : ∀ fuel, value? (fuel + 1) (.text value false :: .newline :: rest) =
      some (.text value, .newline :: rest) := fun _ => by rw [value?]
  simp only [line?, List.length_cons, path, dropBlank, Nat.mul_add, read]
  simp [Entries.change, Entries.define, absent]

theorem lines?_flat {start : Entries} (distinct : (entries.map Prod.fst).Nodup)
    (absent : ∀ entry ∈ entries, Table.get? entry.1 start = none) (enough : entries.length < fuel) :
    lines? fuel ⟨start, []⟩ (flatTokens entries) = some ⟨gather entries start, []⟩ := by
  induction entries generalizing start fuel with
  | nil =>
    cases fuel with
    | zero => cases enough
    | succ fuel => rfl
  | cons entry entries ih =>
    obtain ⟨key, value⟩ := entry
    cases fuel with
    | zero => cases enough
    | succ fuel =>
      rw [List.map_cons, List.nodup_cons] at distinct
      rw [List.forall_mem_cons] at absent
      have others : ∀ entry ∈ entries, Table.get? entry.1 (Table.put key (.value (.text value)) start) = none := by
        intro entry member
        have different : entry.1 ≠ key := fun same => distinct.1 (List.mem_map.mpr ⟨entry, member, same⟩)
        rw [Table.get?_put, if_neg different]
        exact absent.2 entry member
      have tokens : flatTokens ((key, value) :: entries) =
          .text key false :: .equals :: .text value false :: .newline :: flatTokens entries := rfl
      have filler : ∀ rest, dropFiller (.text key false :: rest) = .text key false :: rest :=
        fun rest => by simp [dropFiller]
      rw [tokens, lines?, filler]
      simp only [line?_flat absent.1, endLine?, dropBlank]
      exact ih distinct.2 others (Nat.lt_of_succ_lt_succ enough)

theorem return_notMem_escapedChar (c : Char) : '\r' ∉ Json.escapedChar c := by
  have escaped := Json.escapedChar_escaped c
  generalize Json.escapedChar c = t at escaped
  cases escaped with
  | letter listed =>
    have others : ∀ entry ∈ Json.letters, '\r' ∉ ['\\', entry.1] := by decide
    exact others _ listed
  | code small =>
    have digits : ∀ d < 16, Text.hexChar d ≠ '\r' := by decide
    have high := digits (c.toNat / 16 % 16) (Nat.mod_lt _ (by decide))
    have low := digits (c.toNat % 16) (Nat.mod_lt _ (by decide))
    simp [high.symm, low.symm]
  | itself _ _ large =>
    have other : c ≠ '\r' := fun same => absurd large (by rw [same]; decide)
    simpa using other.symm

theorem return_notMem_quotedText (t : Text) : '\r' ∉ Json.quotedText t := by
  simp [Json.quotedText, return_notMem_escapedChar]

theorem foldBreaks_of_notMem {t : Text} (absent : '\r' ∉ t) : foldBreaks t = t := by
  fun_induction foldBreaks t with
  | case1 rest ih => exact absurd List.mem_cons_self absent
  | case2 c rest _ ih => rw [ih fun member => absent (List.mem_cons_of_mem _ member)]
  | case3 => rfl

theorem entriesToToml_put (key : Text) (node : Node) (entries : Entries) :
    entriesToToml (Table.put key node entries) = Table.put key node.toToml (entriesToToml entries) := by
  induction entries with
  | nil => rfl
  | cons entry rest ih =>
    obtain ⟨name, old⟩ := entry
    simp only [entriesToToml, Table.put]
    split
    · rfl
    · split
      · rfl
      · rw [entriesToToml, ih]

theorem entriesToToml_gather (start : Entries) : entriesToToml (gather entries start) =
    entries.foldl (fun table entry => Table.put entry.1 (.text entry.2) table) (entriesToToml start) := by
  induction entries generalizing start with
  | nil => rfl
  | cons entry entries ih =>
    obtain ⟨key, value⟩ := entry
    rw [List.foldl_cons, ← show (Node.value (.text value)).toToml = .text value from rfl, ← entriesToToml_put]
    exact ih _

-- Texts that are written as the lines of a document are its entries.
theorem document?_written (distinct : (entries.map Prod.fst).Nodup)
    (kept : ∀ entry ∈ entries, Kept entry.1 ∧ Kept entry.2) :
    document? (written entries) =
      some (entries.foldl (fun table entry => Table.put entry.1 (.text entry.2) table) []) := by
  have folded : foldBreaks (written entries) = written entries :=
    foldBreaks_of_notMem (by simp [written, return_notMem_quotedText])
  have unmarked : Text.after? [byteOrderMark] (written entries) = none := by
    cases entries with
    | nil => rfl
    | cons entry entries => exact if_neg (by decide)
  have tokens : tokens? (written entries) = some (flatTokens entries) := by
    unfold tokens?
    rw [unmarked, Option.getD_none, folded]
    exact tokensIn_written kept
  have enough : entries.length < (flatTokens entries).length + 1 := by
    rw [length_flatTokens]
    omega
  have read : lines? ((flatTokens entries).length + 1) ⟨[], []⟩ (flatTokens entries) = some ⟨gather entries [], []⟩ :=
    lines?_flat distinct (fun _ _ => rfl) enough
  unfold document?
  rw [tokens]
  simp only [read, Option.map_some, entriesToToml_gather]
  rfl

end Flat

end FieldGateway.Toml
