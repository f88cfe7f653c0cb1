import Colloquy.Proofs.Settings.Single
import Colloquy.Proofs.Settings.Variables
import Colloquy.Settings.Load

/-!
# Layers of settings

Settings are loaded from the built-in ones, a file and variables, each laid over the ones before.
`Settings.load_layered` says what comes out: every single setting is that of the last variable that
is of it, else that of the file, else the one of a service in development. A list of keys is
replaced as a whole, and neither the order of the variables nor that of the names in the file
matters.

The proof follows the path of each setting: `Datum.seek_overlay` tells what the layers have there
together, and the settings are read from what is there.
-/

set_option autoImplicit false

namespace Colloquy

namespace Settings

/-- The data of a file: a file that is missing has nothing. -/
def fileData : Option (String × Bytes) → Except Yaml.Flaw Datum
  | none => .ok (.group [])
  | some (_, content) => Yaml.read content

/-- A file that sets some of the settings, each to data of its form. Under other names it may have
any data. -/
def FileSets (document : Datum) : Prop :=
  ∀ f ∈ Setting.all, f.suits document = true

/-- Whether a file can be read as settings is decided setting by setting. -/
instance (document : Datum) : Decidable (FileSets document) :=
  inferInstanceAs (Decidable (∀ f ∈ Setting.all, f.suits document = true))

/-- Variables that set some of the settings of one value, each to a text that is read as one. -/
def VariablesSet (vars : List (String × String)) : Prop :=
  ∀ v ∈ vars, ∀ path ∈ Environment.pathOf? v.1,
    ∃ f ∈ Setting.scalars, f.path = path ∧ (f.read? (Environment.valueOf v.2)).isSome = true

/-- Whether variables can be read as settings is decided one by one. -/
instance (vars : List (String × String)) : Decidable (VariablesSet vars) :=
  inferInstanceAs (Decidable (∀ v ∈ vars, ∀ path ∈ Environment.pathOf? v.1,
    ∃ f ∈ Setting.scalars, f.path = path ∧ (f.read? (Environment.valueOf v.2)).isSome = true))

/-- The built-in settings, data of a file and variables laid over one another. -/
def layered (document : Datum) (vars : List (String × String)) : Datum :=
  (((Datum.group []).overlay (Encoded.toDatum development)).overlay document).overlay
    (Environment.settingsOf vars)

/-- Settings are those that the layers are read as, one over the other. -/
theorem ofLayers_of_ofDatum {layers : Layers} {s : Settings}
    (h : Encoded.ofDatum (layers.foldl (fun lower layer => lower.overlay layer.2) (.group [])) =
      .ok s) : ofLayers layers = .ok s := by
  unfold ofLayers
  rw [h]

/-- Loading is reading the file with the variables over it. -/
theorem load_of_layered {file : Option (String × Bytes)} {document : Datum}
    (hfile : fileData file = .ok document) {vars : List (String × String)} {s : Settings}
    (h : Encoded.ofDatum (layered document vars) = .ok s) : load file vars = .ok s := by
  cases file with
  | none =>
    obtain rfl := Except.ok.inj hfile
    exact ofLayers_of_ofDatum h
  | some f =>
    obtain ⟨name, content⟩ := f
    have hread : ofFile name content = .ok document := by
      unfold ofFile
      rw [show Yaml.read content = .ok document from hfile]
      rfl
    show ((ofFile name content).map fun d => [(SettingsSource.file name, d)]).bind _ = _
    rw [hread]
    exact ofLayers_of_ofDatum h

variable {document : Datum} {vars : List (String × String)}

/-- A file that sets settings has at each path nothing or data that are read. -/
theorem FileSets.exists_seek (h : FileSets document) {f : Setting} (hf : f ∈ Setting.all) :
    ∃ found, document.seek f.path = some found ∧ ∀ d ∈ found, ∃ x, f.shape.ofDatum d = .ok x := by
  obtain ⟨found, hseek, hall⟩ := Option.any_eq_true _ _ |>.1 (h f hf)
  refine ⟨found, hseek, fun d hd => ?_⟩
  exact Setting.exists_of_isSome_read? (Option.all_eq_true _ _ |>.1 hall d hd)

/-- Variables that set settings are scalars. -/
theorem VariablesSet.isScalar (h : VariablesSet vars) :
    ∀ v ∈ vars, ∀ p, Environment.pathOf? v.1 = some p → (Environment.valueOf v.2).IsScalar := by
  intro v hv p hp
  obtain ⟨g, hg, -, hread⟩ := h v hv p hp
  obtain ⟨x, hx⟩ := Setting.exists_of_isSome_read? hread
  exact Shape.isScalar_of_ofDatum (Setting.isScalar_of_mem g hg) hx

/-- At the path of a setting the variables have what the last one of them says. -/
theorem VariablesSet.seek (h : VariablesSet vars) {f : Setting} (hf : f ∈ Setting.all) :
    (Environment.settingsOf vars).seek f.path = some (Environment.last? vars f.path) := by
  refine Environment.seek_settingsOf (fun v hv p hp => ?_) (Setting.path_ne_nil f hf)
  obtain ⟨g, hg, rfl, -⟩ := h v hv p hp
  exact ⟨h.isScalar v hv _ hp, Setting.apart_paths f hf g hg⟩

/-- What the last variable of a setting says is read. -/
theorem VariablesSet.exists_read (h : VariablesSet vars) {f : Setting} (hf : f ∈ Setting.all)
    {d : Datum} (hd : Environment.last? vars f.path = some d) :
    ∃ x, f.shape.ofDatum d = .ok x := by
  obtain ⟨v, hv, hpath, rfl⟩ := Environment.exists_of_last? hd
  obtain ⟨g, hg, hsame, hread⟩ := h v hv f.path hpath
  obtain rfl := Setting.eq_of_path hf (List.mem_cons_of_mem _ hg) hsame
  exact Setting.exists_of_isSome_read? hread

/-- What the layers have together at the end of the path of a setting. -/
theorem isIn_layered (hordered : document.IsOrdered) (hfile : FileSets document)
    (hvars : VariablesSet vars) {f : Setting} (hf : f ∈ Setting.all) :
    f.IsIn (layered document vars)
      (f.valueFrom ((Environment.last? vars f.path).or (document.seek f.path).join)) := by
  obtain ⟨found, hfound, hread⟩ := hfile.exists_seek hf
  obtain ⟨d, hd, hdevelopment⟩ := Setting.isIn_development f hf
  have hempty : (Datum.group []).seek f.path = some none := by
    obtain ⟨name, path, hpath⟩ := List.exists_cons_of_ne_nil (Setting.path_ne_nil f hf)
    rw [hpath]
    rfl
  have hwhole : ∀ e, (∃ x, f.shape.ofDatum e = .ok x) → e.IsWhole := fun e ⟨_, hx⟩ =>
    Setting.isWhole_of_read hf hx
  -- one layer after the other
  have hbuiltIn := Datum.seek_overlay (Datum.ordered_ofJson _) hempty hd fun e he =>
    hwhole e ⟨_, Option.some.inj he ▸ hdevelopment⟩
  have hdocument := Datum.seek_overlay hordered hbuiltIn hfound fun e he => hwhole e (hread e he)
  have hlayered := Datum.seek_overlay (Environment.ordered_settingsOf hvars.isScalar) hdocument
    (hvars.seek hf) fun e he => hwhole e (hvars.exists_read hf he)
  have hupper : ∀ e ∈ (Environment.last? vars f.path).or found, ∃ x, f.shape.ofDatum e = .ok x := by
    intro e he
    rcases Option.or_eq_some_iff.1 he with he | ⟨-, he⟩
    · exact hvars.exists_read hf he
    · exact hread e he
  rw [Option.or_none, ← Option.or_assoc] at hlayered
  rw [hfound]
  show f.IsIn _ (f.valueFrom ((Environment.last? vars f.path).or found))
  cases hlast : (Environment.last? vars f.path).or found with
  | none =>
    rw [hlast] at hlayered
    exact ⟨d, hlayered, hdevelopment⟩
  | some e =>
    rw [hlast] at hlayered hupper
    obtain ⟨x, hx⟩ := hupper e rfl
    rw [Setting.valueFrom_of_read hx]
    exact ⟨e, hlayered, hx⟩

/-- The data of a file are ordered. -/
theorem ordered_of_fileData {file : Option (String × Bytes)} (h : fileData file = .ok document) :
    document.IsOrdered := by
  cases file with
  | none =>
    obtain rfl := Except.ok.inj h
    exact .group .nil nofun
  | some f =>
    have hread : (Yaml.written f.2).map Datum.arranged = .ok document := h
    obtain ⟨d, -, rfl⟩ := map_eq_ok_iff.1 hread
    exact Datum.ordered_arranged d

/-- A file and variables that can be read are loaded, each setting from the variables, else from the
file, else as it is by default. -/
theorem exists_load {file : Option (String × Bytes)} (hfile : fileData file = .ok document)
    (hsets : FileSets document) (hvars : VariablesSet vars) :
    ∃ s, load file vars = .ok s ∧ ∀ f ∈ Setting.all,
      f.get s = f.valueFrom ((Environment.last? vars f.path).or (document.seek f.path).join) := by
  have hordered := ordered_of_fileData hfile
  have hlayered : (layered document vars).IsOrdered :=
    Datum.ordered_overlay (Datum.ordered_overlay (Datum.ordered_overlay (.group .nil nofun)
      (Datum.ordered_ofJson _)) hordered) (Environment.ordered_settingsOf hvars.isScalar)
  have hin := fun f hf => isIn_layered hordered hsets hvars (f := f) hf
  obtain ⟨s, hs, hget⟩ := exists_read hlayered fun f hf => ⟨_, hin f hf⟩
  refine ⟨s, load_of_layered hfile hs, fun f hf => ?_⟩
  exact (hget f hf).unique (hin f hf)

/-- Two files that are both missing, or hold the same data with the names of its groups in another
order. -/
def IsReordered : (file other : Option (String × Bytes)) → Prop
  | none, none => True
  | some (_, content), some (_, content') => ∃ d e, Yaml.written content = .ok d ∧
    Yaml.written content' = .ok e ∧ d.Reordered e
  | _, _ => False

/-- Files that differ in the order of their members have the same data. -/
theorem fileData_of_isReordered {file other : Option (String × Bytes)}
    (h : IsReordered file other) : fileData other = fileData file := by
  match file, other, h with
  | none, none, _ => rfl
  | some (_, content), some (_, content'), ⟨d, e, hd, he, hsame⟩ =>
    show (Yaml.written content').map _ = (Yaml.written content).map _
    rw [hd, he]
    exact congrArg Except.ok hsame.arranged_eq.symm

end Settings

/-- The text that a piece of data is, else an empty one. -/
def Datum.textOrBlank : Option Datum → String
  | some (.text t) => t
  | _ => ""

/-- The value of a text setting is the text that is found, or the empty one. -/
theorem Shape.HoldsValue.eq_text {found : Option Datum} {t : String}
    (h : Shape.string.HoldsValue found t) : t = Datum.textOrBlank found := by
  match found, h with
  | none, h => exact Eq.symm h
  | some (.text _), h => exact (Except.ok.inj h).symm

/-- The key that the members of a group are: a text that is left out is empty. -/
def KeySettings.ofMembers (members : List (String × Datum)) : KeySettings where
  key := Datum.textOrBlank (members.lookup "key")
  userId := Datum.textOrBlank (members.lookup "user_id")
  username := Datum.textOrBlank (members.lookup "username")

/-- A listed key has the texts that its members say. -/
theorem KeySettings.eq_ofMembers {members : List (String × Datum)} (hmembers : IsSorted members)
    {k : KeySettings}
    (h : (Encoded.shape KeySettings).ofDatum (.group members) = .ok (Encoded.pack k)) :
    k = .ofMembers members := by
  obtain ⟨hkey, huserId, husername, -⟩ := (Shape.ofDatum_group_iff (by decide) hmembers).1 h
  obtain ⟨key, userId, username⟩ := k
  rw [KeySettings.ofMembers, ← hkey.eq_text, ← huserId.eq_text, ← husername.eq_text]

/-- The keys of a list of groups are those that its groups are, one for one. -/
theorem KeySettings.of_entries {entries : List Datum} (hordered : (Datum.list entries).IsOrdered)
    {keys : List KeySettings}
    (h : Setting.keys.shape.ofDatum (.list entries) = .ok (keys.map Encoded.pack)) :
    keys.length = entries.length ∧ ∀ (i : Nat) (members : List (String × Datum)),
      entries[i]? = some (.group members) → keys[i]? = some (KeySettings.ofMembers members) := by
  obtain ⟨hlength, hitem⟩ := Datum.getElem?_readItems h
  refine ⟨by simpa using hlength, fun i members hmember => ?_⟩
  obtain ⟨x, hx, hentry⟩ := hitem i _ hmember
  rw [List.getElem?_map] at hx
  obtain ⟨k, hk, rfl⟩ := Option.map_eq_some_iff.1 hx
  have hmembers := (hordered.item _ (List.mem_of_getElem? hmember)).isSorted
  rw [hk, KeySettings.eq_ofMembers hmembers hentry]

namespace Settings

/-- No variable sets the list of keys. -/
theorem VariablesSet.last?_keys {vars : List (String × String)} (h : VariablesSet vars) :
    Environment.last? vars Setting.keys.path = none := by
  rw [← Option.not_isSome_iff_eq_none]
  intro hsome
  obtain ⟨d, hd⟩ := Option.isSome_iff_exists.1 hsome
  obtain ⟨v, hv, hpath, -⟩ := Environment.exists_of_last? hd
  obtain ⟨g, hg, hsame, -⟩ := h v hv _ hpath
  have hne : ∀ g ∈ Setting.scalars, g.path ≠ Setting.keys.path := by decide
  exact hne g hg hsame

/-- Settings are loaded wherever the file and the variables set some of them to values of their
forms, and each is that of the uppermost layer that has it. -/
theorem load_layered {file : Option (String × Bytes)} {document : Datum}
    (hfile : fileData file = .ok document) (hsets : FileSets document)
    {vars : List (String × String)} (hvars : VariablesSet vars) :
    ∃ s, load file vars = .ok s ∧
      (∀ f ∈ Setting.all,
        f.get s = f.valueFrom ((Environment.last? vars f.path).or (document.seek f.path).join)) ∧
      (∀ entries, document.seek Setting.keys.path = some (some (.list entries)) →
        s.auth.keys.length = entries.length ∧ ∀ (i : Nat) (members : List (String × Datum)),
          entries[i]? = some (.group members) →
            s.auth.keys[i]? = some (KeySettings.ofMembers members)) ∧
      (∀ others, others.Perm vars → Environment.AreDistinct vars → load file others = .ok s) ∧
      ∀ other, IsReordered file other → load other vars = .ok s := by
  obtain ⟨s, hs, hget⟩ := exists_load hfile hsets hvars
  refine ⟨s, hs, hget, fun entries hentries => ?_, fun others hperm hdistinct => ?_,
    fun other hother => ?_⟩
  · have hmem : Setting.keys ∈ Setting.all := List.mem_cons_self
    obtain ⟨found, hfound, hread⟩ := hsets.exists_seek hmem
    obtain rfl : some (.list entries) = found := Option.some.inj (hentries.symm.trans hfound)
    obtain ⟨xs, hxs⟩ := hread _ rfl
    have hkeys : s.auth.keys.map Encoded.pack = xs := by
      have hget := hget _ hmem
      rw [hvars.last?_keys, hentries] at hget
      exact hget.trans (Setting.valueFrom_of_read hxs)
    have hordered := (ordered_of_fileData hfile).of_seek hentries
    exact KeySettings.of_entries hordered (hkeys ▸ hxs)
  · have hvars' : VariablesSet others := fun v hv => hvars v (hperm.mem_iff.1 hv)
    obtain ⟨t, ht, hget'⟩ := exists_load hfile hsets hvars'
    have hsame : t = s := ext_of_get fun f hf => by
      rw [hget f hf, hget' f hf, Environment.last?_perm hperm hdistinct]
    rw [ht, hsame]
  · have hfile' : fileData other = .ok document := (fileData_of_isReordered hother).trans hfile
    obtain ⟨t, ht, hget'⟩ := exists_load hfile' hsets hvars
    have hsame : t = s := ext_of_get fun f hf => by rw [hget f hf, hget' f hf]
    rw [ht, hsame]

/-- A file with a port, with a limit that refers to it, and with a key that has no name; the
texts of the key stand on a line of its own and behind a tag. -/
def partialFile : Option (String × Bytes) :=
  some ("config.yaml", Utf8.encode
    ("server:\n  port: &limit 9000\ncache:\n  max_history_bytes: *limit\n" ++
      "auth:\n  enabled: true\n  api_keys:\n    - key: |-\n        secret\n" ++
      "      user_id: !!str 1\n"))

/-- Variables of which two are settings. -/
def fewVariables : List (String × String) :=
  [("PARLEY_SERVER__PORT", "9100"), ("HOME", "/"), ("PARLEY_CACHE__MAX_ENTRIES", "50")]

/-- The port of the variable wins over that of the file, the limit of the file is that of its port,
and the key of the file replaces all others. -/
theorem load_layered_partial_file :
    ∃ document s, fileData partialFile = .ok document ∧ FileSets document ∧
      VariablesSet fewVariables ∧ load partialFile fewVariables = .ok s ∧
      s = { development with
        server := { development.server with port := 9100 }
        auth := { development.auth with enabled := true, keys := [⟨"secret", "1", ""⟩] }
        cache := ⟨50, 9000⟩ } := by
  have hfile : (fileData partialFile).toOption.any (fun d => decide (FileSets d)) = true := by
    decide +kernel
  have hvars : VariablesSet fewVariables := by decide +kernel
  have hvalue : (load partialFile fewVariables).toOption = some { development with
      server := { development.server with port := 9100 }
      auth := { development.auth with enabled := true, keys := [⟨"secret", "1", ""⟩] }
      cache := ⟨50, 9000⟩ } := by
    decide +kernel
  cases hdocument : fileData partialFile with
  | error e =>
    rw [hdocument] at hfile
    exact nomatch hfile
  | ok document =>
    rw [hdocument] at hfile
    have hsets : FileSets document := of_decide_eq_true hfile
    obtain ⟨s, hs, -⟩ := load_layered hdocument hsets hvars
    rw [hs] at hvalue
    exact ⟨document, s, rfl, hsets, hvars, hs, Option.some.inj hvalue⟩

end Settings

end Colloquy
