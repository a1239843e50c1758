import Attest.Proofs.Refusals

/-!
# Settings in one form

Settings that were checked have one form: a mode, two messages that are not empty, and a level by
its name in capitals, or none. Whichever way they are made, they are checked in the same way, so the
ways agree; written down as named values they are read back as they are; and values that replace
some of them leave the others.

* `IsCanonical`: the form.
* `check_eq_ok`, `check_raises`: what a check comes to, setting by setting, and what it complains
  about.
* `one_form`: the form is kept, the ways agree, and what is not replaced stays.
-/

namespace Attest

/-- A loop over a list comes to its end if each turn does. -/
theorem Build.Makes.forIn_yield {α : Type} {f : α → PUnit → Build (ForInStep PUnit)} :
    ∀ {l : List α}, (∀ a ∈ l, (f a ⟨⟩).Makes (.yield ⟨⟩)) → Build.Makes (forIn l PUnit.unit f) ⟨⟩
  | [], _ => .pure _
  | a :: l, h => by
    rw [List.forIn_cons]
    exact (h a List.mem_cons_self).bind (forIn_yield fun b hb => h b (List.mem_cons_of_mem a hb))

namespace Value

variable {s t : String}

/-- A key is the same as a text if it reads as that text. -/
theorem same_text_iff {key : Value} : key.same (.text s) = true ↔ key.asText? = some s := by
  cases key <;> simp [same, sameAtom, asNumber?, asText?, isOne]

theorem lookup_insert (v : Value) (entries : List (Value × Value)) :
    lookup (.text s) (insert (.text t) v entries) = if t = s then some v
      else lookup (.text s) entries := by
  induction entries with
  | nil =>
    rw [insert, lookup_cons, same_text]
    simp
  | cons e rest ih =>
    obtain ⟨key, u⟩ := e
    rw [insert]
    by_cases hkey : key.same (.text t) = true
    · have htext := same_text_iff.1 hkey
      have hsame : key.same (.text s) = true ↔ t = s := by
        rw [same_text_iff, htext, Option.some.injEq]
      rw [if_pos hkey, lookup_cons, lookup_cons]
      by_cases hst : t = s
      · rw [if_pos (hsame.2 hst), if_pos hst]
      · rw [if_neg (mt hsame.1 hst), if_neg hst, if_neg (mt hsame.1 hst)]
    · rw [if_neg hkey, lookup_cons, lookup_cons, ih]
      by_cases hs : key.same (.text s) = true
      · have hst : t ≠ s := fun hst => hkey (hst ▸ hs)
        rw [if_pos hs, if_pos hs, if_neg hst]
      · rw [if_neg hs, if_neg hs]

/-- What none of some entries is about stays when they are set one after the other. -/
theorem lookup_foldl_insert {given entries : List (Value × Value)}
    (h : ∀ e ∈ given, ∃ t, e.1 = .text t ∧ t ≠ s) :
    lookup (.text s) (given.foldl (fun entries (key, v) => insert key v entries) entries) =
      lookup (.text s) entries := by
  induction given generalizing entries with
  | nil => rfl
  | cons e given ih =>
    obtain ⟨key, v⟩ := e
    obtain ⟨t, rfl, hts⟩ := h (key, v) List.mem_cons_self
    rw [List.foldl_cons, ih fun e he => h e (List.mem_cons_of_mem _ he), lookup_insert, if_neg hts]

/-- What is found among entries that were made for some names. -/
theorem lookup_filterMap (f : String → Option Value) (names : List String) :
    lookup (.text s) (names.filterMap fun name => (f name).map fun v => (.text name, v)) =
      if s ∈ names then f s else none := by
  induction names with
  | nil => rfl
  | cons name rest ih =>
    rw [List.filterMap_cons]
    cases hname : f name with
    | none =>
      rw [Option.map_none, ih]
      by_cases hs : s = name
      · rw [hs, hname]
        simp
      · simp [hs]
    | some v =>
      rw [Option.map_some, lookup_cons, same_text, ih]
      by_cases hs : s = name
      · simp [hs, hname]
      · simp [hs, Ne.symm hs]

theorem lookup_mem {key v : Value} {entries : List (Value × Value)}
    (h : lookup key entries = some v) :
    ∃ e ∈ entries, e.1.same key = true ∧ e.2 = v := by
  rw [lookup_eq] at h
  obtain ⟨e, he, rfl⟩ := Option.map_eq_some_iff.1 h
  have hsame := List.find?_some he
  exact ⟨e, List.mem_of_find?_eq_some he, hsame, rfl⟩

end Value

namespace Settings

open Value (lookup)

variable {s t : Settings} {values data : List (Value × Value)} {r : Raised}

/-- The form of settings that were checked. The level is one of the known names, in capitals. -/
structure IsCanonical (s : Settings) : Prop where
  message : ∃ text, s.message.asText? = some text ∧ text ≠ ""
  arrayMessage : ∃ text, s.arrayMessage.asText? = some text ∧ text ≠ ""
  logLevel : ∀ level, s.logLevel = some level → level ∈ levels.map (·.1) ∧ Text.upper level = level

/-- What is raised about a value that no setting can have. -/
def IsRefusal (r : Raised) : Prop := ∃ e : SetupError, e.kind = .schema ∧ r = .setup e

/-! ## Names -/

theorem isName_iff {key : Value} : isName key = true ↔ ∃ name ∈ names, key = .text name := by
  unfold isName
  cases key with
  | text name => simp [Value.asText?]
  | mode m => cases m <;> simp [Value.asText?, names, Mode.name]
  | _ => simp [Value.asText?]

/-! ## One setting -/

theorem parse_name (m : Mode) : Mode.parse (.text m.name) = .ok m := by
  cases m <;> with_unfolding_all rfl

theorem checkMessage_eq_ok {name : String} {v u : Value} : checkMessage name v = .ok u ↔
    u = v ∧ ∃ text, v.asText? = some text ∧ text ≠ "" := by
  unfold checkMessage
  cases hv : v.asText? with
  | none => simp
  | some text =>
    by_cases htext : text = ""
    · simp [htext]
    · have hempty : text.isEmpty = false := by simpa using htext
      simp [hempty, htext, eq_comm]

/-- The names of the levels are in capitals. -/
theorem upper_of_mem_levels : ∀ level ∈ levels.map (·.1), Text.upper level = level := by
  decide +kernel

theorem isSome_lookup_levels {level : String} :
    (levels.lookup level).isSome = true ↔ level ∈ levels.map (·.1) := by
  simp only [List.lookup_isSome_iff, List.mem_map, beq_iff_eq]
  exact ⟨fun ⟨e, he, h⟩ => ⟨e, he, h.symm⟩, fun ⟨e, he, h⟩ => ⟨e, he, h.symm⟩⟩

theorem checkLevel_eq_ok {v : Value} {level : Option String} (h : checkLevel v = .ok level) :
    ∀ name, level = some name → name ∈ levels.map (·.1) := by
  rintro name rfl
  unfold checkLevel at h
  split at h
  · cases h
  · split at h
    · cases h
    · simp only at h
      split at h
      · next hfound =>
        cases h
        exact isSome_lookup_levels.1 hfound
      · cases h

theorem checkLevel_name {level : String} (h : level ∈ levels.map (·.1)) :
    checkLevel (.text level) = .ok (some level) := by
  simp only [checkLevel, Value.plain, upper_of_mem_levels level h,
    isSome_lookup_levels.2 h, ↓reduceIte]

theorem checkMessage_raises {name : String} {v : Value} (h : checkMessage name v = .error r) :
    IsRefusal r := by
  unfold checkMessage at h
  simp only at h
  split at h
  · split at h
    · cases h
      exact ⟨_, rfl, rfl⟩
    · cases h
  · cases h
    exact ⟨_, rfl, rfl⟩

theorem checkLevel_raises {v : Value} (hv : v.isWritable = true) (h : checkLevel v = .error r) :
    IsRefusal r := by
  unfold checkLevel at h
  split at h
  · cases h
  · split at h
    · next hplain =>
      have hlong := Value.isWritable_eq_false_of_isShort (Value.plain_error hplain).2
      rw [hv] at hlong
      cases hlong
    · simp only at h
      split at h
      · cases h
      · cases h
        exact ⟨_, rfl, rfl⟩

/-! ## All settings -/

/-- Each setting is checked on its own. -/
theorem check_eq_ok : check values = .ok s ↔
    Mode.parse (given values "default_mode" (.mode .strict)) = .ok s.defaultMode ∧
    checkMessage "message" (given values "message" default.message) = .ok s.message ∧
    checkMessage "array_message" (given values "array_message" default.arrayMessage) =
      .ok s.arrayMessage ∧
    checkLevel (given values "log_level" .null) = .ok s.logLevel := by
  simp only [check, Attempt.bind_eq_ok, Attempt.pure_eq_ok, Except.ok.injEq]
  constructor
  · rintro ⟨mode, hmode, message, hmessage, arrayMessage, harray, level, hlevel, rfl⟩
    exact ⟨hmode, hmessage, harray, hlevel⟩
  · rintro ⟨hmode, hmessage, harray, hlevel⟩
    exact ⟨_, hmode, _, hmessage, _, harray, _, hlevel, rfl⟩

theorem given_isWritable (h : ∀ e ∈ values, e.2.isWritable = true) {name : String} {v : Value}
    (hv : v.isWritable = true) : (given values name v).isWritable = true := by
  unfold given
  cases hfound : lookup (.text name) values with
  | none => exact hv
  | some u =>
    obtain ⟨e, he, -, rfl⟩ := Value.lookup_mem hfound
    exact h e he

/-- A check complains about nothing but a value that the setting cannot have. -/
theorem check_raises (h : ∀ e ∈ values, e.2.isWritable = true) (hr : check values = .error r) :
    IsRefusal r := by
  simp only [check, Attempt.bind_eq_error] at hr
  rcases hr with hmode | ⟨_, -, hmessage | ⟨_, -, harray | ⟨_, -, hlevel | ⟨_, -, hdone⟩⟩⟩⟩
  · refine Mode.parse_raises (fun e he => ⟨e, he, rfl⟩) (fun hlong => ?_) hmode
    cases (given_isWritable h rfl).symm.trans (Value.isWritable_eq_false_of_isShort hlong)
  · exact checkMessage_raises hmessage
  · exact checkMessage_raises harray
  · exact checkLevel_raises (given_isWritable h rfl) hlevel
  · cases hdone

/-- A check looks at nothing but what is found under the names. -/
theorem check_congr (h : ∀ name ∈ names, lookup (.text name) data = lookup (.text name) values) :
    check data = check values := by
  have hgiven : ∀ name ∈ names, ∀ v, given data name v = given values name v :=
    fun name hname v => by
    rw [given, given, h name hname]
  simp only [check, hgiven "default_mode" (by decide), hgiven "message" (by decide),
    hgiven "array_message" (by decide), hgiven "log_level" (by decide)]

theorem check_isCanonical (h : check values = .ok s) : s.IsCanonical := by
  obtain ⟨-, hmessage, harray, hlevel⟩ := check_eq_ok.1 h
  obtain ⟨hm, hmessage⟩ := checkMessage_eq_ok.1 hmessage
  obtain ⟨ha, harray⟩ := checkMessage_eq_ok.1 harray
  refine ⟨hm ▸ hmessage, ha ▸ harray, fun level hs => ?_⟩
  have hmem := checkLevel_eq_ok hlevel level hs
  exact ⟨hmem, upper_of_mem_levels level hmem⟩

/-- What is found under the names of the settings that were written down. -/
theorem given_toMap (s : Settings) (v : Value) :
    given s.toMap "default_mode" v = .text s.defaultMode.name ∧
    given s.toMap "message" v = s.message ∧
      given s.toMap "array_message" v = s.arrayMessage ∧
      given s.toMap "log_level" v = (s.logLevel.map .text).getD .null := by
  obtain ⟨mode, message, arrayMessage, level⟩ := s
  cases level <;> simp [given, toMap, Value.lookup_cons, Value.same_text]

/-- Settings of the form are read back from their named values as they are. -/
theorem check_toMap (h : s.IsCanonical) : check s.toMap = .ok s := by
  refine check_eq_ok.2 ⟨?_, ?_, ?_, ?_⟩
  · rw [(given_toMap s _).1]
    exact parse_name s.defaultMode
  · rw [(given_toMap s _).2.1]
    exact checkMessage_eq_ok.2 ⟨rfl, h.message⟩
  · rw [(given_toMap s _).2.2.1]
    exact checkMessage_eq_ok.2 ⟨rfl, h.arrayMessage⟩
  · rw [(given_toMap s _).2.2.2]
    cases hlevel : s.logLevel with
    | none => rfl
    | some level => exact checkLevel_name (h.logLevel level hlevel).1

/-! ## Ways to make settings -/

theorem find?_unknown (h : ∀ e ∈ values, isName e.1 = true) :
    (values.find? fun (key, _) => !isName key) = none := by
  rw [List.find?_eq_none]
  rintro ⟨key, v⟩ he
  simpa using h _ he

theorem ofArguments_eq (h : ∀ e ∈ values, isName e.1 = true) :
    ofArguments values = check values := by
  rw [ofArguments, find?_unknown h]

theorem ofArguments_eq_ok (h : ofArguments values = .ok s) : check values = .ok s := by
  unfold ofArguments at h
  split at h
  · cases h
  · exact h

/-- A key that is no name is passed over, with a warning in which it is written. -/
theorem passOver_makes {key : Value} (hkey : key.isWritable = true) :
    Build.Makes (if !isName key then do
      Build.log .warning ("Ignoring unknown guard setting: " ++ (← Build.plain key))
      pure (ForInStep.yield PUnit.unit)
    else pure (ForInStep.yield PUnit.unit)) (ForInStep.yield PUnit.unit) := by
  obtain ⟨text, htext⟩ := Build.Makes.plain hkey
  split
  · exact htext.bind ((Build.Makes.log _ _).bind (.pure _))
  · exact .pure _

/-- Settings from a map are those that its entries under names are checked to be. -/
theorem ofMap_makes (h : ∀ e ∈ data, e.1.isWritable = true)
    (hs : check (data.filter fun e => isName e.1) = .ok s) : (ofMap data).Makes s := by
  unfold ofMap
  exact (Build.Makes.forIn_yield fun e he => passOver_makes (h e he)).bind (.ofExcept hs)

theorem ofMap_fails (h : ∀ e ∈ data, e.1.isWritable = true)
    (hr : check (data.filter fun e => isName e.1) = .error r) : (ofMap data).Fails r := by
  unfold ofMap
  exact (Build.Makes.forIn_yield fun e he => passOver_makes (h e he)).bind_fails fun _ => hr

theorem ofMap_yields (h : (ofMap data).Yields s) :
    check (data.filter fun e => isName e.1) = .ok s := by
  obtain ⟨_, -, hs⟩ := h.bind
  exact hs.ofExcept

/-- Settings from an environment are those that the variables of the names are checked to be. -/
theorem ofEnvironment_eq {environment : List (Value × Value)}
    (h : ∀ name ∈ names,
      lookup (.text (variableName name)) environment = lookup (.text name) values) :
    ofEnvironment environment = check values :=
  check_congr fun name hname => by rw [Value.lookup_filterMap, if_pos hname, h name hname]

/-! ## Overrides -/

/-- The overrides that replace something. -/
def replacing (overrides : List (Value × Value)) : List (Value × Value) :=
  overrides.filter fun (_, v) => match v with | .null => false | _ => true

theorem mem_replacing {overrides : List (Value × Value)} {e : Value × Value} :
    e ∈ replacing overrides ↔ e ∈ overrides ∧ e.2 ≠ .null := by
  obtain ⟨key, v⟩ := e
  simp only [replacing, List.mem_filter, ne_eq]
  cases v <;> simp

/-- Overridden settings are those that the named values are checked to be, with some of them
replaced. -/
theorem withOverrides_eq_ok {overrides : List (Value × Value)}
    (h : s.withOverrides overrides = .ok t) :
    (∀ e ∈ replacing overrides, isName e.1 = true) ∧
      check ((replacing overrides).foldl (fun values (key, v) => Value.insert key v values)
        s.toMap) = .ok t := by
  obtain ⟨-, -, h⟩ := Attempt.bind_eq_ok.1 h
  simp only at h
  split at h
  · next key hfound =>
    rw [ofArguments, hfound] at h
    cases h
  · next hfound =>
    refine ⟨fun e he => ?_, h⟩
    have hname := List.find?_eq_none.1 hfound e he
    simpa using hname

/-- An override is absent, or null. -/
def LeavesOut (overrides : List (Value × Value)) (name : String) : Prop :=
  ∀ v, (Value.text name, v) ∈ overrides → v = .null

/-- Of the settings before overrides, all stays that these leave out. -/
structure Keeps (overrides : List (Value × Value)) (s t : Settings) : Prop where
  defaultMode : LeavesOut overrides "default_mode" → t.defaultMode = s.defaultMode
  message : LeavesOut overrides "message" → t.message = s.message
  arrayMessage : LeavesOut overrides "array_message" → t.arrayMessage = s.arrayMessage
  logLevel : LeavesOut overrides "log_level" → t.logLevel = s.logLevel

theorem withOverrides_keeps {overrides : List (Value × Value)} (hs : s.IsCanonical)
    (h : s.withOverrides overrides = .ok t) : Keeps overrides s t := by
  obtain ⟨hnames, h⟩ := withOverrides_eq_ok h
  obtain ⟨hmode, hmessage, harray, hlevel⟩ := check_eq_ok.1 h
  have hstays : ∀ name, LeavesOut overrides name → ∀ v,
      given ((replacing overrides).foldl
        (fun values (key, v) => Value.insert key v values) s.toMap) name v =
          given s.toMap name v := by
    intro name hout v
    rw [given, given, Value.lookup_foldl_insert]
    rintro ⟨key, u⟩ he
    -- what is set has a name, and it is another one, since this one is left out
    obtain ⟨other, -, rfl⟩ := isName_iff.1 (hnames _ he)
    obtain ⟨hmem, hnull⟩ := mem_replacing.1 he
    refine ⟨other, rfl, ?_⟩
    rintro rfl
    exact hnull (hout u hmem)
  constructor
  · intro hout
    rw [hstays _ hout, (given_toMap s _).1, parse_name] at hmode
    exact (Except.ok.inj hmode).symm
  · intro hout
    rw [hstays _ hout, (given_toMap s _).2.1] at hmessage
    exact (checkMessage_eq_ok.1 hmessage).1
  · intro hout
    rw [hstays _ hout, (given_toMap s _).2.2.1] at harray
    exact (checkMessage_eq_ok.1 harray).1
  · intro hout
    rw [hstays _ hout, (given_toMap s _).2.2.2] at hlevel
    cases hl : s.logLevel with
    | none =>
      rw [hl] at hlevel
      exact (Except.ok.inj hlevel).symm
    | some level =>
      have hsame := checkLevel_name (hs.logLevel level hl).1
      rw [hl] at hlevel
      exact Except.ok.inj (hlevel.symm.trans hsame)

theorem requireNames_eq {overrides : List (Value × Value)}
    (hnames : ∀ e ∈ overrides, isName e.1 = true) :
    Build.requireNames overrides = .ok () := by
  have hself : ¬ (overrides.any fun (key, _) => key.same (.text "self")) = true := by
    rw [List.any_eq_true]
    rintro ⟨⟨key, v⟩, he, hkey⟩
    obtain ⟨name, hname, rfl⟩ := isName_iff.1 (hnames _ he)
    obtain rfl : name = "self" := by simpa [Value.same_text] using hkey
    exact absurd hname (by decide)
  have htexts : (overrides.all fun (key, _) => key.asText?.isSome) = true := by
    rw [List.all_eq_true]
    rintro ⟨key, v⟩ he
    obtain ⟨name, -, rfl⟩ := isName_iff.1 (hnames _ he)
    rfl
  rw [Build.requireNames, if_neg hself, if_pos htexts]

/-- Overrides under names are set in the named values, which are checked again. -/
theorem withOverrides_eq {overrides : List (Value × Value)}
    (hnames : ∀ e ∈ overrides, isName e.1 = true) :
    s.withOverrides overrides =
      check ((replacing overrides).foldl (fun values (key, v) => Value.insert key v values)
        s.toMap) := by
  have hnone := @find?_unknown (replacing overrides) fun e he => hnames e (mem_replacing.1 he).1
  rw [withOverrides, requireNames_eq hnames, Attempt.ok_bind]
  dsimp only
  split
  · next hsome => exact absurd (hnone.symm.trans hsome) nofun
  · rfl

/-- Overrides that leave out everything come to the settings themselves. -/
theorem withOverrides_none (hs : s.IsCanonical) {overrides : List (Value × Value)}
    (hnames : ∀ e ∈ overrides, isName e.1 = true) (hnull : ∀ e ∈ overrides, e.2 = .null) :
    s.withOverrides overrides = .ok s := by
  have hnothing : replacing overrides = [] :=
    List.eq_nil_iff_forall_not_mem.2 fun e he =>
      (mem_replacing.1 he).2 (hnull e (mem_replacing.1 he).1)
  rw [withOverrides_eq hnames, hnothing]
  exact check_toMap hs

/-! ## One form -/

/-- Settings that come from arguments, a map or an environment, and from overrides after that. -/
inductive IsMade : Settings → Prop
  | arguments {s : Settings} {values : List (Value × Value)} : ofArguments values = .ok s → IsMade s
  | map {s : Settings} {values : List (Value × Value)} : (ofMap values).Yields s → IsMade s
  | environment {s : Settings} {values : List (Value × Value)} :
      ofEnvironment values = .ok s → IsMade s
  | overridden {s t : Settings} {overrides : List (Value × Value)} : IsMade s →
    s.withOverrides overrides = .ok t → IsMade t

theorem IsMade.isCanonical (h : IsMade s) : s.IsCanonical := by
  cases h with
  | arguments h => exact check_isCanonical (ofArguments_eq_ok h)
  | map h => exact check_isCanonical (ofMap_yields h)
  | environment h => exact check_isCanonical h
  | overridden _ h => exact check_isCanonical (withOverrides_eq_ok h).2

theorem toMap_names (s : Settings) : ∀ e ∈ s.toMap, ∃ name ∈ names, e.1 = .text name := by
  intro e he
  simp only [toMap, List.mem_cons, List.not_mem_nil, or_false] at he
  rcases he with rfl | rfl | rfl | rfl
  · exact ⟨"default_mode", by decide, rfl⟩
  · exact ⟨"message", by decide, rfl⟩
  · exact ⟨"array_message", by decide, rfl⟩
  · exact ⟨"log_level", by decide, rfl⟩

/-- Settings of the form are read from the map that they are written to. -/
theorem ofMap_toMap (hs : s.IsCanonical) : (ofMap s.toMap).Makes s := by
  have hkeys : ∀ e ∈ s.toMap, e.1.isWritable = true := fun e he => by
    obtain ⟨name, -, hname⟩ := toMap_names s e he
    rw [hname]
    rfl
  have hfilter : (s.toMap.filter fun e => isName e.1) = s.toMap :=
    List.filter_eq_self.2 fun e he => isName_iff.2 (toMap_names s e he)
  refine ofMap_makes hkeys ?_
  rw [hfilter]
  exact check_toMap hs

theorem agrees_self (hs : s.IsCanonical) : s.agrees s = true := by
  have htext : ∀ {v : Value} {text : String}, v.asText? = some text → v.same v = true := by
    intro v text hv
    cases v with
    | text s => simp [Value.same_text]
    | mode m => simp [Value.same, Value.sameAtom, Value.asNumber?, Value.asText?]
    | _ => cases hv
  obtain ⟨text, hm, -⟩ := hs.message
  obtain ⟨text', ha, -⟩ := hs.arrayMessage
  simp [agrees, htext hm, htext ha]

/-- Settings have one form, whichever way they are made and however often some of them are replaced,
and they are read back from what they are written to. The same entries come to the same settings as
arguments, among other entries of a map, and as variables among others of an environment, or they
are refused in all of these ways. What overrides leave out, or hold null for, stays as it is. -/
theorem one_form :
    (∀ s, IsMade s → s.IsCanonical ∧ (ofMap s.toMap).Makes s ∧ s.agrees s = true) ∧
    (∀ entries data environment, (∀ e ∈ entries, isName e.1 = true) →
      (∀ e ∈ entries, e.2.isWritable = true) →
      (data.filter fun e => isName e.1) = entries → (∀ e ∈ data, e.1.isWritable = true) →
      (∀ name ∈ names,
        lookup (.text (variableName name)) environment = lookup (.text name) entries) →
      (∃ s, ofArguments entries = .ok s ∧ (ofMap data).Makes s ∧
        ofEnvironment environment = .ok s) ∨
        ∃ e : SetupError, e.kind = .schema ∧ ofArguments entries = .error (.setup e) ∧
          (ofMap data).Fails (.setup e) ∧ ofEnvironment environment = .error (.setup e)) ∧
    (∀ s overrides, IsMade s → (∀ e ∈ overrides, isName e.1 = true) →
      (∀ t, s.withOverrides overrides = .ok t → Keeps overrides s t) ∧
        ((∀ e ∈ overrides, e.2 = .null) → s.withOverrides overrides = .ok s)) := by
  refine ⟨fun s hs => ?_, fun entries data environment hnames hvalues hdata hkeys hvariables => ?_,
    fun s overrides hs hnames => ?_⟩
  · exact ⟨hs.isCanonical, ofMap_toMap hs.isCanonical, agrees_self hs.isCanonical⟩
  · have harguments := ofArguments_eq hnames
    have henvironment := ofEnvironment_eq hvariables
    cases hcheck : check entries with
    | ok s =>
      exact .inl ⟨s, harguments.trans hcheck, ofMap_makes hkeys (hdata ▸ hcheck),
        henvironment.trans hcheck⟩
    | error r =>
      obtain ⟨e, he, rfl⟩ := check_raises hvalues hcheck
      exact .inr ⟨e, he, harguments.trans hcheck, ofMap_fails hkeys (hdata ▸ hcheck),
        henvironment.trans hcheck⟩
  · exact ⟨fun t => withOverrides_keeps hs.isCanonical, withOverrides_none hs.isCanonical hnames⟩

/-- A mode and a level in small letters, given among other things, and a level that is replaced. -/
theorem one_form_environment :
    let entries :=
      [(Value.text "default_mode", Value.text " partial "), (.text "log_level", .text "debug")]
    let data := (Value.int 7, Value.null) :: entries
    let environment :=
      [(Value.text "DATAKNOBS_GUARD_LOG_LEVEL", Value.text "debug"), (.text "HOME", .text "/"),
        (.text "DATAKNOBS_GUARD_DEFAULT_MODE", .text " partial ")]
    let overrides := [(Value.text "log_level", Value.text "info"), (.text "default_mode", .null)]
    ∃ s t, (∀ e ∈ entries, isName e.1 = true) ∧ (∀ e ∈ entries, e.2.isWritable = true) ∧
      (data.filter fun e => isName e.1) = entries ∧ (∀ e ∈ data, e.1.isWritable = true) ∧
      (∀ name ∈ names,
        lookup (.text (variableName name)) environment = lookup (.text name) entries) ∧
      ofArguments entries = .ok s ∧ (ofMap data).Makes s ∧ ofEnvironment environment = .ok s ∧
      (∀ e ∈ overrides, isName e.1 = true) ∧ s.withOverrides overrides = .ok t ∧
        t.logLevel = some "INFO" ∧
      t.defaultMode = .given ∧ t.IsCanonical ∧ (ofMap t.toMap).Makes t := by
  intro entries data environment overrides
  let s : Settings := ⟨.given, default.message, default.arrayMessage, some "DEBUG"⟩
  let t : Settings := { s with logLevel := some "INFO" }
  have hnames : ∀ e ∈ entries, isName e.1 = true := by decide +kernel
  have hvalues : ∀ e ∈ entries, e.2.isWritable = true := by decide +kernel
  have hvariables : ∀ name ∈ names,
      lookup (.text (variableName name)) environment = lookup (.text name) entries := by
    have hmode : variableName "default_mode" = "DATAKNOBS_GUARD_DEFAULT_MODE" := by decide +kernel
    have hmessage : variableName "message" = "DATAKNOBS_GUARD_MESSAGE" := by decide +kernel
    have harray : variableName "array_message" = "DATAKNOBS_GUARD_ARRAY_MESSAGE" := by
      decide +kernel
    have hlevel : variableName "log_level" = "DATAKNOBS_GUARD_LOG_LEVEL" := by decide +kernel
    intro name hname
    simp only [names, List.mem_cons, List.not_mem_nil, or_false] at hname
    rcases hname with rfl | rfl | rfl | rfl <;>
      simp [*, environment, entries, lookup, Value.same_text]
  have harguments : ofArguments entries = .ok s := by
    rw [ofArguments_eq hnames]
    have hmode : Mode.parse (.text " partial ") = .ok .given := by with_unfolding_all rfl
    have hlevel : checkLevel (.text "debug") = .ok (some "DEBUG") := by with_unfolding_all rfl
    exact check_eq_ok.2 ⟨by simpa [given, entries, lookup, Value.same_text] using hmode,
      checkMessage_eq_ok.2
        ⟨by simp [given, entries, lookup, Value.same_text, s], by decide +kernel⟩,
      checkMessage_eq_ok.2
        ⟨by simp [given, entries, lookup, Value.same_text, s], by decide +kernel⟩,
      by simpa [given, entries, lookup, Value.same_text] using hlevel⟩
  have hoverrides : ∀ e ∈ overrides, isName e.1 = true := by decide +kernel
  have hoverridden : s.withOverrides overrides = .ok t := by
    have hreplaced : replacing overrides = [(.text "log_level", .text "info")] := rfl
    have hset : Value.insert (.text "log_level") (.text "info") s.toMap =
        [(.text "default_mode", .text "PARTIAL"), (.text "message", default.message),
          (.text "array_message", default.arrayMessage), (.text "log_level", .text "info")] := by
      simp [Value.insert, toMap, Value.same_text, s, Mode.name]
    have hmode : Mode.parse (.text "PARTIAL") = .ok .given := by with_unfolding_all rfl
    have hlevel : checkLevel (.text "info") = .ok (some "INFO") := by with_unfolding_all rfl
    rw [withOverrides_eq hoverrides, hreplaced]
    show check (Value.insert (.text "log_level") (.text "info") s.toMap) = .ok t
    rw [hset]
    exact check_eq_ok.2 ⟨by simpa [given, lookup, Value.same_text] using hmode,
      checkMessage_eq_ok.2 ⟨by simp [given, lookup, Value.same_text, s, t], by decide +kernel⟩,
      checkMessage_eq_ok.2 ⟨by simp [given, lookup, Value.same_text, s, t], by decide +kernel⟩,
      by simpa [given, lookup, Value.same_text] using hlevel⟩
  obtain ⟨hform, hways, hkeeps⟩ := one_form
  have hdata : (data.filter fun e => isName e.1) = entries := rfl
  have hkeys : ∀ e ∈ data, e.1.isWritable = true := by decide +kernel
  rcases hways entries data environment hnames hvalues hdata hkeys hvariables with
    ⟨s', hs', hdata', henvironment⟩ | ⟨e, -, hrefused, -⟩
  · obtain rfl : s = s' := Except.ok.inj (harguments.symm.trans hs')
    have hmade : IsMade s := .arguments harguments
    have hkept := (hkeeps s overrides hmade hoverrides).1 t hoverridden
    obtain ⟨hcanonical, hread, -⟩ := hform t (.overridden hmade hoverridden)
    exact ⟨s, t, hnames, hvalues, hdata, hkeys, hvariables, harguments, hdata',
      henvironment, hoverrides, hoverridden, rfl, hkept.defaultMode
        (by simp [LeavesOut, overrides]), hcanonical, hread⟩
  · rw [harguments] at hrefused
    cases hrefused

end Settings

end Attest
