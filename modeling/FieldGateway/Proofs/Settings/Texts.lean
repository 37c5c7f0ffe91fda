import FieldGateway.Proofs.Settings.Layers

-- What becomes of the texts among the settings, and which keys leave a setting alone.
namespace FieldGateway.Settings
open Setting (Flat Apart at? apply)

variable {disk : Disk} {file : Option Text} {start : Text} {environment : Environment} {s : Settings} {tree : Setting}

namespace Field

variable {α : Type} {f : Field α} {key : Text} {keys : List Text} {rest : List Setting.Step}

structure Tabular (f : Field α) (tree : Setting) (keys : List Text) : Prop where
  listless : (Settings.group f.group tree).items = []
  named : ∀ key ∈ keys, ∀ rest, Setting.path key = .key f.group :: rest → ∃ name below, rest = .key name :: below

theorem Tabular.placeless (tabular : f.Tabular tree keys) : f.Placeless keys := by
  intro key member place rest split
  obtain ⟨name, below, other⟩ := tabular.named key member _ split
  cases other

theorem Tabular.parts (tabular : f.Tabular tree keys) : ∀ key ∈ keys, Setting.path key ≠ [.key f.group] := by
  intro key member whole
  obtain ⟨name, below, other⟩ := tabular.named key member _ whole
  cases other

theorem Tabular.settled (tabular : f.Tabular tree (environment.keys start))
    (loads : Loads disk file start environment tree s) :
    (environment.given? start f.key).elim (f.reading (f.said tree)) (fun text => f.decode (Environment.setting text)) =
      some (f.get s) := by
  obtain ⟨set, unset⟩ := Field.settled (f := f) loads tabular.placeless
  cases own : environment.given? start f.key with
  | some text =>
    rcases set text own with decoded | ⟨_, key, member, whole⟩
    · exact decoded
    · exact absurd whole (tabular.parts key member)
  | none => exact (unset own).1 ⟨tabular.parts, .inl tabular.listless⟩

theorem apart_ne (apart : Apart (Setting.path key) f.path) : key ≠ f.key := by
  rintro rfl
  rw [path_own] at apart
  exact Apart.irrefl _ apart

theorem apart_named (apart : Apart (Setting.path key) f.path) (entered : Setting.path key = .key f.group :: rest) :
    ∃ name below, rest = .key name :: below := by
  rw [entered] at apart
  rcases apart with different | later
  · exact absurd rfl different
  · rcases later with different | last
    · exact ⟨_, _, rfl⟩
    · cases last

theorem Tabular.insert {before after : Environment} {name : Text}
    (tabular : f.Tabular tree (Environment.keys start (before ++ after)))
    (other : ∀ key, Environment.key? start name = some key → Apart (Setting.path key) f.path) (text : Text) :
    f.Tabular tree (Environment.keys start (before ++ (name, text) :: after)) := by
  refine ⟨tabular.listless, fun key member rest entered => ?_⟩
  rcases Environment.mem_keys_insert.mp member with new | old
  · exact apart_named (other key new) entered
  · exact tabular.named key old rest entered

structure Spared (f : Field α) (start : Text) (environment : Environment) (tree : Setting) (s : Settings) : Prop where
  byVariable : ∀ before after name text disk file s', environment = before ++ after →
    (∀ key, Environment.key? start name = some key → Apart (Setting.path key) f.path) →
    Loads disk file start (before ++ (name, text) :: after) tree s' → f.get s' = f.get s
  byFile : ∀ disk file tree' s', f.Tabular tree' (environment.keys start) → f.said tree' = f.said tree →
    Loads disk file start environment tree' s' → f.get s' = f.get s

theorem Tabular.spared (tabular : f.Tabular tree (environment.keys start))
    (loads : Loads disk file start environment tree s) : f.Spared start environment tree s := by
  have settled := tabular.settled loads
  constructor
  · rintro before after name text disk' file' s' rfl other loads'
    have settled' := (tabular.insert other text).settled loads'
    rw [Environment.given?_insert fun own => apart_ne (other f.key own) rfl, settled] at settled'
    exact (Option.some.inj settled').symm
  · intro disk' file' tree' s' tabular' said loads'
    have settled' := tabular'.settled loads'
    rw [said, settled] at settled'
    exact (Option.some.inj settled').symm

-- A setting that is a text, by the layers. The text that is given for it is lost only if a
-- variable stands for its whole group, and that of the file if one does or enters its group,
-- which is a list in the file.
structure Layered (f : Field Text) (start : Text) (environment : Environment) (tree : Setting) (s : Settings) : Prop where
  given : ∀ text, environment.given? start f.key = some text →
    ((Environment.setting text).toText? = some (f.get s) ∧ (f.get s = text ↔ ¬ Environment.Respelled text)) ∨
    (f.get s = f.get standard ∧ ∃ key ∈ environment.keys start, Setting.path key = [.key f.group])
  filed : ∀ text, environment.given? start f.key = none → f.said tree = some (.text text) →
    f.Outlasts tree (environment.keys start) → f.get s = text
  unsaid : environment.given? start f.key = none → f.said tree = none → f.get s = f.get standard
  lost : environment.given? start f.key = none → ¬ f.Outlasts tree (environment.keys start) → f.get s = f.get standard

theorem layered {f : Field Text} (reads : f.decode = Setting.toText?)
    (loads : Loads disk file start environment tree s) (placeless : f.Placeless (environment.keys start)) :
    f.Layered start environment tree s := by
  obtain ⟨set, unset⟩ := settled (f := f) loads placeless
  rw [reads] at set
  constructor
  · intro text given
    refine (set text given).imp_left fun read => ?_
    exact ⟨read, Environment.kept_iff read⟩
  · intro text none said outlasts
    have found := (unset none).1 outlasts
    have flat : Flat (.text text) := trivial
    rw [said, reading_flat flat, reads] at found
    exact (Option.some.inj found).symm
  · intro none unsaid
    by_cases outlasts : f.Outlasts tree (environment.keys start)
    · have found := (unset none).1 outlasts
      rw [unsaid] at found
      exact (Option.some.inj found).symm
    · exact (unset none).2 outlasts
  · intro none lost
    exact (unset none).2 lost

end Field

-- A text is kept as it was written where the file gives it, and where a variable gives it as long
-- as it reads neither as a truth value nor as a number that is written in another way. Keys that
-- part from one another do not disturb each other, but a key for a whole group, or for a place in
-- it, does.
theorem texts_layered :
    (∀ s, load disk file (some start) environment = some s → ∃ tree, Loads disk file start environment tree s) ∧
    (∀ tree s, Loads disk file start environment tree s →
      (∀ f ∈ [Field.level, Field.directory], f.Placeless (environment.keys start) → f.Layered start environment tree s) ∧
      (Field.level.Tabular tree (environment.keys start) → Field.level.Spared start environment tree s) ∧
      (Field.json.Tabular tree (environment.keys start) → Field.json.Spared start environment tree s) ∧
      (Field.directory.Tabular tree (environment.keys start) → Field.directory.Spared start environment tree s)) ∧
    (∀ root key value path, Apart (Setting.path key) path → at? path (apply root [(key, value)]) = at? path root) ∧
    ∀ text c, Stray c → c ∈ text → ¬ Environment.Respelled text := by
  refine ⟨fun _ => load_loads, fun tree s loads => ⟨fun f member placeless => Field.layered ?_ loads placeless, ?_, ?_, ?_⟩,
    ?_, fun text c => Environment.not_respelled_stray⟩
  · rcases List.mem_cons.mp member with rfl | rest
    · rfl
    · cases List.mem_singleton.mp rest
      rfl
  · exact fun tabular => tabular.spared loads
  · exact fun tabular => tabular.spared loads
  · exact fun tabular => tabular.spared loads
  · intro root key value path apart
    exact Setting.at?_assign_apart apart value root

def plantFile : Text :=
  "\x7b\"logging\": \x7b\"level\": \"warn\", \"json\": true\x7d, \"agent\": \x7b\"config_dir\": \"007\"\x7d\x7d"

def plant : Disk := ⟨[(["etc", "gateway.json"], Text.toBytes plantFile)]⟩

def traced : Environment := [("DEVGATE__LOGGING__LEVEL", "gateway=trace,info")]

theorem texts_layered_plant :
    (∃ tree, ∀ f ∈ [Field.level, Field.directory],
      f.Layered environmentPrefix traced tree ⟨"gateway=trace,info", true, "007"⟩) ∧
    ¬ Environment.Respelled "gateway=trace,info" ∧
    Field.level.Spared environmentPrefix traced (.ofLayers [[]]) ⟨"gateway=trace,info", false, "./config"⟩ := by
  have loaded : load plant (some "/etc/gateway.json") (some environmentPrefix) traced =
      some ⟨"gateway=trace,info", true, "007"⟩ := by
    decide +kernel
  obtain ⟨tree, loads⟩ := texts_layered.1 _ loaded
  have named : Environment.keys environmentPrefix traced = [Field.level.key] := by decide
  have placeless : ∀ f : Field Text, f.Placeless (Environment.keys environmentPrefix traced) := by
    intro f
    rw [named]
    intro key own place rest split
    cases List.mem_singleton.mp own
    rw [Field.path_own] at split
    exact nomatch (List.cons.inj (List.cons.inj split).2).1
  have all := fun f member => (texts_layered.2.1 _ _ loads).1 f member (placeless f)
  have given : Environment.given? environmentPrefix Field.level.key traced = some "gateway=trace,info" := by decide
  refine ⟨⟨tree, all⟩, ?_, ?_⟩
  · rcases (all _ List.mem_cons_self).given _ given with ⟨_, kept⟩ | ⟨lost, _⟩
    · exact kept.mp rfl
    · exact absurd lost (by decide)
  · have bare : Loads ⟨[]⟩ none environmentPrefix traced (.ofLayers [[]]) ⟨"gateway=trace,info", false, "./config"⟩ :=
      .intro rfl (.refl _) (.refl _) (by decide +kernel)
    refine (texts_layered.2.1 _ _ bare).2.1 ⟨rfl, fun key member rest entered => ?_⟩
    rw [named] at member
    cases List.mem_singleton.mp member
    rw [Field.path_own] at entered
    exact ⟨_, _, (List.cons.inj entered).2.symm⟩

theorem variable_respelled :
    load ⟨[]⟩ none (some environmentPrefix) [("DEVGATE__AGENT__CONFIG_DIR", "007")] = some ⟨"info", false, "7"⟩ ∧
      load ⟨[]⟩ none (some environmentPrefix) [("DEVGATE__LOGGING[0]", "warn")] = some ⟨"warn", false, "./config"⟩ := by
  decide +kernel

end FieldGateway.Settings
