import Colloquy.Proofs.Shape.LayeredRecord
import Colloquy.Settings
import Mathlib.Data.List.Nodup

/-!
# Single settings

Settings are a tree of records. `Setting.all` lists what is at its leaves, each with the names that
lead to it: the settings of one value and the list of keys. Data that has a value of every one of
them is read as settings, which are made of these values (`Settings.exists_read`), and settings are
told by them (`Settings.ext_of_get`).
-/

set_option autoImplicit false

namespace Colloquy

/-- A single setting: the names on the way to it, its form, and what it is among all settings. -/
structure Setting where
  path : List String
  shape : Shape
  get : Settings → shape.Carrier

namespace Setting

/-- The settings that are made of one value. -/
def scalars : List Setting :=
  [⟨["server", "host"], .string, (·.server.host)⟩,
    ⟨["server", "port"], .short, (·.server.port)⟩,
    ⟨["logging", "level"], .string, (·.logging.level)⟩,
    ⟨["logging", "structured"], .flag, (·.logging.structured)⟩,
    ⟨["logging", "log_dir"], .optional (.text "path string"), (·.logging.directory)⟩,
    ⟨["logging", "file_prefix"], .string, (·.logging.fileStem)⟩,
    ⟨["auth", "enabled"], .flag, (·.auth.enabled)⟩,
    ⟨["auth", "jwt_secret"], .string, (·.auth.tokenSecret)⟩,
    ⟨["auth", "jwt_issuer"], .string, (·.auth.tokenIssuer)⟩,
    ⟨["auth", "jwt_audience"], .string, (·.auth.tokenAudience)⟩,
    ⟨["feedback", "enabled"], .flag, (·.feedback.enabled)⟩,
    ⟨["cache", "max_entries"], .word, (·.cache.maxEntries)⟩,
    ⟨["cache", "max_history_bytes"], .word, (·.cache.maxHistoryBytes)⟩,
    ⟨["app_name"], .string, (·.appName)⟩,
    ⟨["environment"], .string, (·.environment)⟩]

/-- The setting that is a list. -/
def keys : Setting :=
  ⟨["auth", "api_keys"], .list (Encoded.shape KeySettings), (·.auth.keys.map Encoded.pack)⟩

/-- All settings. -/
def all : List Setting :=
  keys :: scalars

/-- The name of the variable of a setting. -/
def variableName (f : Setting) : String :=
  Environment.mark ++ "__".intercalate (f.path.map String.toUpper)

/-- The name of a variable leads to the path of its setting. -/
theorem pathOf?_variableName : ∀ f ∈ all, Environment.pathOf? f.variableName = some f.path := by
  decide +kernel

/-- The value that a piece of data stands for. -/
def read? (f : Setting) (d : Datum) : Option f.shape.Carrier :=
  (f.shape.ofDatum d).toOption

/-- The value that layers have for a setting, the first of which counts; else the built-in one. -/
def valueFrom (f : Setting) (found : Option Datum) : f.shape.Carrier :=
  (found.bind f.read?).getD (f.get Settings.development)

/-- Whether a group leaves a setting out or has data of its form for it. -/
def suits (f : Setting) (root : Datum) : Bool :=
  (root.seek f.path).any fun found => found.all fun d => (f.read? d).isSome

/-- Data are read as a value of a setting as they are read as one of its shape. -/
theorem read?_eq_some_iff {f : Setting} {d : Datum} {x : f.shape.Carrier} :
    f.read? d = some x ↔ f.shape.ofDatum d = .ok x :=
  toOption_eq_some_iff

/-- If data can be read for a setting, there is a value that they are read as. -/
theorem exists_of_isSome_read? {f : Setting} {d : Datum} (h : (f.read? d).isSome = true) :
    ∃ x, f.shape.ofDatum d = .ok x := by
  obtain ⟨x, hx⟩ := Option.isSome_iff_exists.1 h
  exact ⟨x, read?_eq_some_iff.1 hx⟩

/-- A setting has the value that is read for it. -/
theorem valueFrom_of_read {f : Setting} {d : Datum} {x : f.shape.Carrier}
    (h : f.shape.ofDatum d = .ok x) : f.valueFrom (some d) = x := by
  unfold valueFrom
  rw [Option.bind_some, read?_eq_some_iff.2 h]
  rfl

/-- The settings that are scalars have the shape of scalars. -/
theorem isScalar_of_mem : ∀ f ∈ scalars, f.shape.isScalar = true := by
  simp only [scalars, List.forall_mem_cons]
  decide

/-- Data that are read for a setting are taken as a whole. -/
theorem isWhole_of_read {f : Setting} (hf : f ∈ all) {d : Datum} {x : f.shape.Carrier}
    (h : f.shape.ofDatum d = .ok x) : d.IsWhole := by
  rcases List.mem_cons.1 hf with rfl | hf
  · cases d with
    | group => exact nomatch h
    | _ => trivial
  · exact (Shape.isScalar_of_ofDatum (isScalar_of_mem f hf) h).isWhole

/-- The path of a scalar setting parts from that of any other setting. -/
theorem apart_paths : ∀ f ∈ all, ∀ g ∈ scalars, g.path = f.path ∨ Datum.Apart g.path f.path := by
  decide

/-- No two settings have the same path. -/
theorem nodup_paths : (all.map path).Nodup := by
  decide

/-- A setting is told by its path. -/
theorem eq_of_path {f g : Setting} (hf : f ∈ all) (hg : g ∈ all) (h : g.path = f.path) : g = f :=
  List.inj_on_of_nodup_map nodup_paths hg hf h

/-- No setting is the whole. -/
theorem path_ne_nil : ∀ f ∈ all, f.path ≠ [] := by
  decide

/-- Data has a value of a setting at the end of its path. -/
def IsIn (f : Setting) (root : Datum) (x : f.shape.Carrier) : Prop :=
  ∃ d, root.seek f.path = some (some d) ∧ f.shape.ofDatum d = .ok x

/-- A setting has one value. -/
theorem IsIn.unique {f : Setting} {root : Datum} {x y : f.shape.Carrier} (hx : f.IsIn root x)
    (hy : f.IsIn root y) : x = y := by
  obtain ⟨d, hd, hread⟩ := hx
  obtain ⟨e, he, hread'⟩ := hy
  obtain rfl : d = e := Option.some.inj (Option.some.inj (hd.symm.trans he))
  exact Except.ok.inj (hread.symm.trans hread')

/-- The settings for development have each setting as it is. -/
theorem isIn_development :
    ∀ f ∈ all, f.IsIn (Encoded.toDatum Settings.development) (f.get Settings.development) := by
  simp only [all, keys, scalars, List.forall_mem_cons]
  and_intros
  all_goals first
    | exact ⟨_, rfl, rfl⟩
    | exact nofun

end Setting

/-- Data that has a value of every single setting is read as settings, which are made of them. -/
theorem Settings.exists_read {root : Datum} (hroot : root.IsOrdered)
    (h : ∀ f ∈ Setting.all, ∃ x, f.IsIn root x) :
    ∃ s : Settings, Encoded.ofDatum root = .ok s ∧ ∀ f ∈ Setting.all, f.IsIn root (f.get s) := by
  simp only [Setting.all, Setting.keys, Setting.scalars, List.forall_mem_cons] at h ⊢
  obtain ⟨⟨keys, hkeys⟩, ⟨host, hhost⟩, ⟨port, hport⟩, ⟨level, hlevel⟩, ⟨structured, hstructured⟩,
    ⟨directory, hdirectory⟩, ⟨fileStem, hfileStem⟩, ⟨enabled, henabled⟩, ⟨secret, hsecret⟩,
    ⟨issuer, hissuer⟩, ⟨audience, haudience⟩, ⟨taken, htaken⟩, ⟨entries, hentries⟩,
    ⟨bytes, hbytes⟩, ⟨appName, happName⟩, ⟨environment, henvironment⟩, -⟩ := h
  -- first the sections, each from its settings, and then all of them from the sections
  have hserver : ∃ d, root.seek ["server"] = some (some d) ∧
      (Encoded.shape ServerSettings).ofDatum d = .ok (host, port, ()) :=
    Fields.Given.exists_record hroot (by decide) ⟨hhost, hport, trivial⟩
  have hlogging : ∃ d, root.seek ["logging"] = some (some d) ∧
      (Encoded.shape LoggingSettings).ofDatum d =
        .ok (level, structured, directory, fileStem, ()) :=
    Fields.Given.exists_record hroot (by decide)
      ⟨hlevel, hstructured, hdirectory, hfileStem, trivial⟩
  have hauth : ∃ d, root.seek ["auth"] = some (some d) ∧
      (Encoded.shape AuthSettings).ofDatum d = .ok (enabled, keys, secret, issuer, audience, ()) :=
    Fields.Given.exists_record hroot (by decide)
      ⟨henabled, hkeys, hsecret, hissuer, haudience, trivial⟩
  have hfeedback : ∃ d, root.seek ["feedback"] = some (some d) ∧
      (Encoded.shape FeedbackSettings).ofDatum d = .ok (taken, ()) :=
    Fields.Given.exists_record hroot (by decide) ⟨htaken, trivial⟩
  have hcache : ∃ d, root.seek ["cache"] = some (some d) ∧
      (Encoded.shape CacheSettings).ofDatum d = .ok (entries, bytes, ()) :=
    Fields.Given.exists_record hroot (by decide) ⟨hentries, hbytes, trivial⟩
  have hall : ∃ d, root.seek [] = some (some d) ∧ (Encoded.shape Settings).ofDatum d =
      .ok ((host, port, ()), (level, structured, directory, fileStem, ()),
        (enabled, keys, secret, issuer, audience, ()), (taken, ()), (entries, bytes, ()),
        appName, environment, ()) :=
    Fields.Given.exists_record hroot (by decide)
      ⟨hserver, hlogging, hauth, hfeedback, hcache, happName, henvironment, trivial⟩
  obtain ⟨d, hd, hread⟩ := hall
  obtain rfl := Datum.eq_of_seek_nil hd
  refine ⟨Encoded.unpack _, congrArg (Except.map Encoded.unpack) hread, ?_, hhost, hport, hlevel,
    hstructured, hdirectory, hfileStem, henabled, hsecret, hissuer, haudience, htaken, hentries,
    hbytes, happName, henvironment, nofun⟩
  obtain ⟨d, hd, hkeys⟩ := hkeys
  have hpacked : (keys.map Encoded.unpack).map (Encoded.pack : KeySettings → _) = keys := by
    rw [List.map_map]
    exact List.map_id keys
  exact ⟨d, hd, hkeys.trans (congrArg Except.ok hpacked.symm)⟩

/-- Settings are told by the single ones. -/
theorem Settings.ext_of_get {s t : Settings} (h : ∀ f ∈ Setting.all, f.get s = f.get t) :
    s = t := by
  obtain ⟨⟨host, port⟩, ⟨level, structured, directory, fileStem⟩,
    ⟨enabled, keys, secret, issuer, audience⟩, ⟨taken⟩, ⟨entries, bytes⟩, appName, environment⟩ := s
  obtain ⟨⟨host', port'⟩, ⟨level', structured', directory', fileStem'⟩,
    ⟨enabled', keys', secret', issuer', audience'⟩, ⟨taken'⟩, ⟨entries', bytes'⟩, appName',
    environment'⟩ := t
  simp only [Setting.all, Setting.keys, Setting.scalars, List.forall_mem_cons] at h
  obtain ⟨hkeys, rfl, rfl, rfl, rfl, rfl, rfl, rfl, rfl, rfl, rfl, rfl, rfl, rfl, rfl, rfl, -⟩ := h
  have hunpack : ∀ ks : List KeySettings, (ks.map Encoded.pack).map Encoded.unpack = ks := by
    intro ks
    rw [List.map_map]
    exact List.map_id ks
  have hkeys : keys = keys' := by rw [← hunpack keys, hkeys, hunpack keys']
  rw [hkeys]

end Colloquy
