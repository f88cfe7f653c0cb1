import Colloquy.Proofs.Settings.Single
import Colloquy.Proofs.Settings.ValueReads
import Colloquy.Proofs.Settings.Variables
import Colloquy.Settings.Load

/-!
# Texts from variables

What becomes of a text that is given to a setting by its variable alone. The text is first read as
a value (`Environment.Spells`), and the setting is what that is, if it is a text. So a text arrives
as it is exactly if it is not written as a value at all, or is a plain text without white space at
its ends that is no number (`Settings.load_text_variable`): of a quoted text the quotation marks are
lost, and a number, a truth value, a list or a group is refused.
-/

set_option autoImplicit false

namespace Colloquy

/-- A setting that is a text. -/
inductive TextSetting
  | host
  | level
  | fileStem
  | tokenSecret
  | tokenIssuer
  | tokenAudience
  | appName
  | environment
  deriving DecidableEq, Repr, Inhabited

namespace TextSetting

/-- The names on the way to a setting. -/
def path : TextSetting → List String
  | host => ["server", "host"]
  | level => ["logging", "level"]
  | fileStem => ["logging", "file_prefix"]
  | tokenSecret => ["auth", "jwt_secret"]
  | tokenIssuer => ["auth", "jwt_issuer"]
  | tokenAudience => ["auth", "jwt_audience"]
  | appName => ["app_name"]
  | environment => ["environment"]

/-- The settings with a text in the place of one of them. -/
def put (text : String) (settings : Settings) : TextSetting → Settings
  | host => { settings with server.host := text }
  | level => { settings with logging.level := text }
  | fileStem => { settings with logging.fileStem := text }
  | tokenSecret => { settings with auth.tokenSecret := text }
  | tokenIssuer => { settings with auth.tokenIssuer := text }
  | tokenAudience => { settings with auth.tokenAudience := text }
  | appName => { settings with appName := text }
  | environment => { settings with environment := text }

/-- The name of the variable of a setting. -/
def variableName (f : TextSetting) : String :=
  Environment.mark ++ "__".intercalate (f.path.map String.toUpper)

/-- The name of a variable leads to the path of its text. -/
theorem pathOf?_variableName (f : TextSetting) :
    Environment.pathOf? f.variableName = some f.path := by
  have hsetting : ∃ g ∈ Setting.all, g.path = f.path := by
    cases f <;> simp [Setting.all, Setting.keys, Setting.scalars, path]
  obtain ⟨g, hg, hpath⟩ := hsetting
  have hname : g.variableName = f.variableName := by
    unfold Setting.variableName variableName
    rw [hpath]
  rw [← hname, ← hpath]
  exact Setting.pathOf?_variableName g hg

/-- A text setting that is put tells which text was put. -/
theorem put_injective {f : TextSetting} {settings : Settings} {text text' : String}
    (h : f.put text settings = f.put text' settings) : text = text' := by
  cases f <;> simpa [put] using h

end TextSetting

namespace Settings

open Environment

/-- What a single variable is laid over are the built-in settings. -/
theorem load_single {name value : String} {path : List String} (hpath : pathOf? name = some path) :
    load none [(name, value)] =
      ofLayers [(.builtIn, Encoded.toDatum development),
        (.environment, (Datum.group []).overlay (nest (valueOf value) path))] := by
  have hsettings : settingsOf [(name, value)] =
      (Datum.group []).overlay (nest (valueOf value) path) := by
    rw [settingsOf_eq, List.foldl_cons, List.foldl_nil]
    unfold withVariable
    rw [hpath]
  rw [← hsettings]
  rfl

/-- A text at the path of a setting of text is that setting. -/
theorem ofLayers_text (f : TextSetting) (text : String) :
    ofLayers [(.builtIn, Encoded.toDatum development),
        (.environment, (Datum.group []).overlay (nest (.text text) f.path))] =
      .ok (f.put text development) := by
  cases f <;> rfl

/-- Anything else at the path of a setting of text is refused there. -/
theorem ofLayers_of_ne_text (f : TextSetting) {d : Datum} (h : ∀ text, d ≠ .text text) :
    ofLayers [(.builtIn, Encoded.toDatum development),
        (.environment, (Datum.group []).overlay (nest d f.path))] =
      .error (.misfit .environment ⟨.wrongType d "a string", f.path.map .member⟩) := by
  cases d with
  | text t => exact absurd rfl (h t)
  | _ => cases f <;> rfl

/-- A variable whose value is a text sets its setting to that text. -/
theorem load_of_valueOf_eq_text (f : TextSetting) {s text : String} (h : valueOf s = .text text) :
    load none [(f.variableName, s)] = .ok (f.put text development) := by
  rw [load_single f.pathOf?_variableName, h]
  exact ofLayers_text f text

/-- A variable whose value is no text is refused as one that is of the wrong type. -/
theorem load_of_valueOf_ne_text (f : TextSetting) {s : String}
    (h : ∀ text, valueOf s ≠ .text text) :
    load none [(f.variableName, s)] =
      .error (.misfit .environment ⟨.wrongType (valueOf s) "a string", f.path.map .member⟩) := by
  rw [load_single f.pathOf?_variableName]
  exact ofLayers_of_ne_text f h

/-- A text arrives as it is exactly if that is what it stands for. -/
theorem load_unchanged_iff (f : TextSetting) (s : String) :
    load none [(f.variableName, s)] = .ok (f.put s development) ↔ valueOf s = .text s := by
  constructor
  · intro hload
    by_cases h : ∃ text, valueOf s = .text text
    · obtain ⟨text, h⟩ := h
      rw [load_of_valueOf_eq_text f h] at hload
      rw [h, TextSetting.put_injective (Except.ok.inj hload)]
    · rw [load_of_valueOf_ne_text f fun text htext => h ⟨text, htext⟩] at hload
      cases hload
  · exact load_of_valueOf_eq_text f

/-- What becomes of a text that is given to a setting of text by its variable. It arrives as it is
exactly if it is not written as a value, or is a plain text without white space at its ends and no
number. If it is written for a text, that text arrives; if it is written for something else, this is
refused at the place of the setting. -/
theorem load_text_variable (f : TextSetting) (s : String) :
    (load none [(f.variableName, s)] = .ok (f.put s development) ↔
      (∀ d, ¬Spells s.toList d) ∨
        (IsPlainText s.toList ∧ Blank.trim s.toList = s.toList ∧ ¬IsNumber s.toList)) ∧
    (∀ text, Spells s.toList (.text text) →
      load none [(f.variableName, s)] = .ok (f.put text development)) ∧
    ∀ d, Spells s.toList d → (∀ text, d ≠ .text text) →
      load none [(f.variableName, s)] =
        .error (.misfit .environment ⟨.wrongType d "a string", f.path.map .member⟩) := by
  refine ⟨?_, fun text h => load_of_valueOf_eq_text f (valueOf_of_spells h), fun d h hd => ?_⟩
  · rw [load_unchanged_iff]
    constructor
    · intro hvalue
      by_cases h : ∃ d, Spells s.toList d
      · obtain ⟨d, hd⟩ := h
        obtain rfl : d = .text s := (valueOf_of_spells hd).symm.trans hvalue
        exact Or.inr hd.self
      · exact Or.inl fun d hd => h ⟨d, hd⟩
    · rintro (h | ⟨hplain, htrim, hnumber⟩)
      · exact valueOf_of_not_spells h
      · exact valueOf_of_spells (hplain.spells_self htrim hnumber)
  · obtain rfl := valueOf_of_spells h
    exact load_of_valueOf_ne_text f hd

/-- A secret of digits in quotation marks, which are lost. -/
theorem load_text_variable_quoted_secret :
    Spells "\"12345\"".toList (.text "12345") ∧
      load none [("PARLEY_AUTH__JWT_SECRET", "\"12345\"")] =
        .ok { development with auth.tokenSecret := "12345" } := by
  have hbody : IsQuoted "12345".toList "12345".toList := by
    refine .plain fun c hc => ?_
    have hall : "12345".toList.all (fun c => isQuotable c && c ≠ '"' && c ≠ '\\') = true := by
      decide
    have hchar := List.all_eq_true.1 hall c hc
    rw [Bool.and_eq_true, Bool.and_eq_true, decide_eq_true_eq, decide_eq_true_eq] at hchar
    exact ⟨hchar.1.1, hchar.1.2, hchar.2⟩
  have hspells : Spells "\"12345\"".toList (.text "12345") := by
    have hempty : AreBlanks [] := nofun
    exact .quoted hempty hempty hbody
  have hname : TextSetting.tokenSecret.variableName = "PARLEY_AUTH__JWT_SECRET" := by
    decide +kernel
  have hload := (load_text_variable .tokenSecret "\"12345\"").2.1 "12345" hspells
  rw [hname] at hload
  exact ⟨hspells, hload⟩

/-- A secret of digits without quotation marks is taken as a number, and no settings are loaded. -/
theorem load_secret_of_digits :
    load none [("PARLEY_AUTH__JWT_SECRET", "12345")] =
        .error (.misfit .environment
          ⟨.wrongType (.unsigned 12345) "a string", [.member "auth", .member "jwt_secret"]⟩) ∧
      load none [("PARLEY_AUTH__JWT_SECRET", "12345")] ≠
        .ok { development with auth.tokenSecret := "12345" } := by
  have hname : TextSetting.tokenSecret.variableName = "PARLEY_AUTH__JWT_SECRET" := by
    decide +kernel
  have hvalue : valueOf "12345" = .unsigned 12345 := rfl
  have hload := load_of_valueOf_ne_text .tokenSecret (s := "12345") (by rw [hvalue]; nofun)
  rw [hname, hvalue] at hload
  refine ⟨hload, fun hok => ?_⟩
  rw [hload] at hok
  cases hok

end Settings

end Colloquy
