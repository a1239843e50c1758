import Attest.Proofs.Agreement

/-!
# Shelves

What a catalog is from the outside: a map from names to validators that knows when each name was
entered. A name that is entered again while it is there keeps its time, and one that was removed and
comes back gets a new one; so the names are listed by their times. Nothing is said of how this is
stored.

* `Session`: a catalog, the structs that blueprints were built into, and the log, under requests.
* `Shelf`: the map, and `Shelf.Answers`: what it replies to the same requests.
* `perform_follows`, `run_follows`: a session replies as the map does, at every step of every run.
* `run_orderly`: and so it keeps the order of names, and structs the validators they were created
  with.
-/

namespace Attest

/-! ## Requests and replies -/

/-- What is asked of a catalog, and of the structs that are created from it. -/
inductive Session.Request where
  | register (key : String) (value : Value) (replace : Bool)
  | unregister (key : String)
  | get (key : String)
  | has (key : String)
  | clear
  | keys
  | count
  /-- To build a blueprint that may refer to the catalog. -/
  | create (settings : Settings) (config : List (Value × Value))
  /-- To judge arguments by the struct of a number. -/
  | judge (struct : Nat) (w : World) (args : List Value)

inductive Session.Reply where
  | done
  | validator (v : Validator)
  | truth (b : Bool)
  | names (keys : List Value)
  | number (n : Nat)
  /-- What a struct makes of its arguments, if there is a struct of that number. -/
  | judged (c : Option (Call Value))
  | raised (r : Raised)

/-- A catalog in use: the structs that were created, in order, and the log so far. -/
structure Session where
  catalog : Catalog
  structs : List Validator
  log : List LogLine

namespace Session

def start (label : String) : Session := ⟨.empty label, [], []⟩

/-- Does what is asked. -/
def perform (s : Session) : Request → Reply × Session
  | .register key value replace =>
    match (s.catalog.register (.text key) value replace).run s.log with
    | ((.ok (), c), log) => (.done, { s with catalog := c, log })
    | ((.error r, c), log) => (.raised r, { s with catalog := c, log })
  | .unregister key =>
    match (s.catalog.unregister (.text key)).run s.log with
    | (.ok (v, c), log) => (.validator v, { s with catalog := c, log })
    | (.error r, log) => (.raised r, { s with log })
  | .get key =>
    match (s.catalog.get (.text key)).run s.log with
    | (.ok v, log) => (.validator v, { s with log })
    | (.error r, log) => (.raised r, { s with log })
  | .has key => (.truth (s.catalog.has (.text key)), s)
  | .clear => (.done, { s with catalog := s.catalog.clear })
  | .keys => (.names s.catalog.keys, s)
  | .count => (.number s.catalog.count, s)
  | .create settings config =>
    match (Blueprint.build (some s.catalog) settings config).run s.log with
    | (.ok v, log) => (.done, { s with structs := s.structs ++ [v], log })
    | (.error r, log) => (.raised r, { s with log })
  | .judge struct w args => (.judged (s.structs[struct]?.map fun v => v.call w args), s)

/-- Does what is asked, one request after the other. -/
def run (s : Session) : List Request → List Reply × Session
  | [] => ([], s)
  | q :: rest =>
    let (reply, next) := s.perform q
    let (replies, last) := next.run rest
    (reply :: replies, last)

end Session

/-! ## The map -/

/-- A map from names to validators, each with the time at which its name was entered. The clock
shows the next time. -/
structure Shelf where
  clock : Nat
  place : String → Option (Nat × Validator)

namespace Shelf

def empty : Shelf := ⟨0, fun _ => none⟩

/-- A name that is not there is entered now. -/
def enter (m : Shelf) (key : String) (v : Validator) : Shelf :=
  ⟨m.clock + 1, Function.update m.place key (some (m.clock, v))⟩

/-- A name that is there gets another validator, and keeps its time. -/
def replace (m : Shelf) (key : String) (time : Nat) (v : Validator) : Shelf :=
  { m with place := Function.update m.place key (some (time, v)) }

def remove (m : Shelf) (key : String) : Shelf :=
  { m with place := Function.update m.place key none }

def clear (m : Shelf) : Shelf := { m with place := fun _ => none }

/-- The names that are there, each of them once, by their times. -/
structure Lists (m : Shelf) (names : List String) : Prop where
  mem : ∀ key, key ∈ names ↔ (m.place key).isSome = true
  order : names.Pairwise fun a b => ∀ p q, m.place a = some p → m.place b = some q → p.1 < q.1

/-- Where a mistake happened: the key and the name of the catalog. -/
def context (label key : String) : List (Value × Value) :=
  [(.text "key", .text key), (.text "registry", .text label)]

/-- What a map replies to a request, and what it is afterwards. The structs are none of its
business. -/
inductive Answers (label : String) (m : Shelf) : Session.Request → Session.Reply → Shelf → Prop
  | entered {key : String} {kind : Kind} {step : Step} {id : Option ObjectId} {replace : Bool} :
      m.place key = none →
      Answers label m (.register key (.validator kind step id) replace) .done
        (m.enter key ⟨kind, step⟩)
  | replaced {key : String} {kind : Kind} {step : Step} {id : Option ObjectId}
      {time : Nat} {v : Validator} :
      m.place key = some (time, v) →
      Answers label m (.register key (.validator kind step id) true) .done
        (m.replace key time ⟨kind, step⟩)
  | taken {key : String} {kind : Kind} {step : Step} {id : Option ObjectId}
      {place : Nat × Validator} :
      m.place key = some place →
      Answers label m (.register key (.validator kind step id) false)
        (.raised (.setup ⟨.operation, "Validator '" ++ key ++ "' already registered in " ++ label,
          context label key⟩)) m
  | noValidator {key : String} {value : Value} {replace : Bool} :
      (∀ kind step id, value ≠ .validator kind step id) →
      Answers label m (.register key value replace)
        (.raised (.setup ⟨.schema, "Only validators can be registered, got " ++ value.typeName,
          context label key⟩)) m
  | removed {key : String} {time : Nat} {v : Validator} : m.place key = some (time, v) →
      Answers label m (.unregister key) (.validator v) (m.remove key)
  | notRemoved {key : String} : m.place key = none →
      Answers label m (.unregister key)
        (.raised (.setup ⟨.notFound, "Validator not found: " ++ key, context label key⟩)) m
  | got {key : String} {time : Nat} {v : Validator} : m.place key = some (time, v) →
      Answers label m (.get key) (.validator v) m
  | notGot {key : String} {names : List String} : m.place key = none → m.Lists names →
      Answers label m (.get key)
        (.raised (.setup ⟨.notFound, "Validator not found: " ++ key,
          context label key ++ [(.text "available_keys", .list (names.map .text))]⟩)) m
  | has {key : String} : Answers label m (.has key) (.truth (m.place key).isSome) m
  | cleared : Answers label m .clear .done m.clear
  | listed {names : List String} :
      m.Lists names → Answers label m .keys (.names (names.map .text)) m
  | counted {names : List String} : m.Lists names → Answers label m .count (.number names.length) m
  | created {settings : Settings} {config : List (Value × Value)} {reply : Session.Reply} :
      Answers label m (.create settings config) reply m
  | judged {struct : Nat} {w : World} {args : List Value} {reply : Session.Reply} :
      Answers label m (.judge struct w args) reply m

/-- What a map replies to one request after the other. -/
inductive Runs (label : String) : Shelf → List Session.Request → List Session.Reply → Shelf → Prop
  | nil (m : Shelf) : Runs label m [] [] m
  | cons {m next last : Shelf} {q : Session.Request} {rest : List Session.Request}
      {reply : Session.Reply}
      {replies : List Session.Reply} :
      Answers label m q reply next → Runs label next rest replies last →
      Runs label m (q :: rest) (reply :: replies) last

end Shelf

/-! ## Rows -/

/-- A row of a catalog, with the time at which its name was entered. -/
structure Row where
  time : Nat
  name : String
  validator : Validator

def Row.entry (r : Row) : Value × Validator := (.text r.name, r.validator)

/-- The rows of a catalog are those of a map, by their times. -/
structure Shows (m : Shelf) (entries : List (Value × Validator)) (rows : List Row) : Prop where
  entries : entries = rows.map Row.entry
  place : ∀ {key : String} {time : Nat} {v : Validator}, m.place key = some (time, v) ↔
    ⟨time, key, v⟩ ∈ rows
  sorted : rows.Pairwise fun a b => a.time < b.time
  early : ∀ r ∈ rows, r.time < m.clock

namespace Shows

variable {m : Shelf} {entries : List (Value × Validator)} {rows : List Row} {key : String}

theorem empty : Shows .empty [] [] := ⟨rfl, by simp [Shelf.empty], .nil, List.forall_mem_nil _⟩

theorem place_eq (h : Shows m entries rows) {r : Row} (hr : r ∈ rows) :
    m.place r.name = some (r.time, r.validator) := h.place.2 hr

/-- No name stands in two rows. -/
theorem nodup (h : Shows m entries rows) : (rows.map Row.name).Nodup := by
  refine List.pairwise_map.2 (h.sorted.imp_of_mem fun ha hb hlt heq => ?_)
  have hplace := h.place_eq ha
  rw [heq, h.place_eq hb, Option.some.injEq, Prod.mk.injEq] at hplace
  exact absurd hplace.1 (Nat.ne_of_gt hlt)

theorem mem_names (h : Shows m entries rows) :
    key ∈ rows.map Row.name ↔ (m.place key).isSome = true := by
  rw [List.mem_map, Option.isSome_iff_exists]
  constructor
  · rintro ⟨r, hr, rfl⟩
    exact ⟨_, h.place_eq hr⟩
  · rintro ⟨⟨time, v⟩, hplace⟩
    exact ⟨_, h.place.1 hplace, rfl⟩

/-- The names of the rows are the names of the map, by their times. -/
theorem lists (h : Shows m entries rows) : m.Lists (rows.map Row.name) := by
  refine ⟨fun key => h.mem_names, List.pairwise_map.2
    (h.sorted.imp_of_mem fun ha hb hlt p q hp hq => ?_)⟩
  rw [h.place_eq ha] at hp
  rw [h.place_eq hb] at hq
  cases hp
  cases hq
  exact hlt

theorem same_entry (r : Row) (key : String) : r.entry.1.same (.text key) = (r.name == key) :=
  Value.same_text r.name key

/-- What is found under a name is what the map has there. -/
theorem find?_eq (h : Shows m entries rows) {label : String} :
    (Catalog.mk label entries).find? (.text key) = (m.place key).map (·.2) := by
  have hsame : (fun e : Value × Validator => e.1.same (.text key)) ∘ Row.entry =
    fun r => r.name == key :=
    funext fun r => same_entry r key
  have hfind : (Catalog.mk label entries).find? (.text key) =
      (rows.find? fun r => r.name == key).map Row.validator := by
    simp only [Catalog.find?, h.entries, List.find?_map, Option.map_map, hsame]
    rfl
  rw [hfind]
  cases hrow : rows.find? fun r => r.name == key with
  | some r =>
    have hname : r.name = key := by simpa using List.find?_some hrow
    rw [← hname, h.place_eq (List.mem_of_find?_eq_some hrow)]
    rfl
  | none =>
    have hnone : m.place key = none := by
      rw [Option.eq_none_iff_forall_ne_some]
      rintro ⟨time, v⟩ hplace
      simpa using List.find?_eq_none.1 hrow _ (h.place.1 hplace)
    rw [hnone]
    rfl

theorem not_mem_names (h : Shows m entries rows) (hkey : m.place key = none) :
    ∀ r ∈ rows, r.name ≠ key := by
  rintro r hr rfl
  rw [h.place_eq hr] at hkey
  cases hkey

/-! ### Entering and replacing -/

theorem put_new (v : Validator) (time : Nat) : ∀ {rows : List Row}, (∀ r ∈ rows, r.name ≠ key) →
    Catalog.put (.text key) v (rows.map Row.entry) = (rows ++ [Row.mk time key v]).map Row.entry
  | [], _ => rfl
  | r :: rest, h => by
    have hne : (Value.text r.name).same (.text key) = false := by
      rw [Value.same_text]
      simpa using h r List.mem_cons_self
    have ih := put_new v time fun r' hr => h r' (List.mem_cons_of_mem _ hr)
    rw [List.map_cons, Row.entry, Catalog.put, hne, ih]
    rfl

/-- The row of a name with another validator; all others as they are. -/
def revised (key : String) (v : Validator) (r : Row) :
    Row := if r.name = key then { r with validator := v } else r

theorem revised_time (v : Validator) (r : Row) : (revised key v r).time = r.time := by
  unfold revised
  split <;> rfl

theorem names_revised (v : Validator) (rows : List Row) :
    (rows.map (revised key v)).map Row.name = rows.map Row.name := by
  have hname : ∀ r ∈ rows, (Row.name ∘ revised key v) r = r.name := fun r _ => by
    simp only [Function.comp_apply, revised]
    split <;> rfl
  rw [List.map_map, List.map_congr_left hname]

theorem map_revised_of_ne (v : Validator) {rows : List Row} (h : ∀ r ∈ rows, r.name ≠ key) :
    rows.map (revised key v) = rows := by
  have heq : ∀ r ∈ rows, revised key v r = id r := fun r hr => if_neg (h r hr)
  rw [List.map_congr_left heq, List.map_id]

theorem mem_revised {v u : Validator} {other : String} {time : Nat} :
    Row.mk time other u ∈ rows.map (revised key v) ↔
      if other = key then u = v ∧ ∃ w, Row.mk time key w ∈ rows
        else Row.mk time other u ∈ rows := by
  rw [List.mem_map]
  constructor
  · rintro ⟨⟨t, name, w⟩, hr, hrow⟩
    unfold revised at hrow
    split at hrow
    · next hname =>
      cases hname
      cases hrow
      rw [if_pos rfl]
      exact ⟨rfl, w, hr⟩
    · next hname =>
      cases hrow
      rwa [if_neg hname]
  · split
    · next hname =>
      rintro ⟨rfl, w, hr⟩
      exact ⟨_, hr, hname ▸ if_pos rfl⟩
    · next hname => exact fun hr => ⟨_, hr, if_neg hname⟩

theorem put_old (v : Validator) :
    ∀ {rows : List Row}, (rows.map Row.name).Nodup → key ∈ rows.map Row.name →
    Catalog.put (.text key) v (rows.map Row.entry) = (rows.map (revised key v)).map Row.entry
  | r :: rest, hnodup, hmem => by
    rw [List.map_cons, List.nodup_cons] at hnodup
    rw [List.map_cons, Row.entry, Catalog.put, Value.same_text, List.map_cons,
      List.map_cons, revised]
    by_cases hname : r.name = key
    -- No row below has the name, so that all of them stay as they are.
    · have hrest : ∀ r' ∈ rest, r'.name ≠ key := fun r' hr heq =>
        hnodup.1 (hname ▸ heq ▸ List.mem_map_of_mem hr)
      rw [if_pos (beq_iff_eq.2 hname), if_pos hname, map_revised_of_ne v hrest]
      rfl
    · have hmem : key ∈ rest.map Row.name := (List.mem_cons.1 hmem).resolve_left (Ne.symm hname)
      rw [if_neg (by simpa using hname), if_neg hname, put_old v hnodup.2 hmem]
      rfl

theorem enter (h : Shows m entries rows) (hkey : m.place key = none) (v : Validator) :
    Shows (m.enter key v) (Catalog.put (.text key) v entries) (rows ++ [Row.mk m.clock key v]) := by
  have hnew := h.not_mem_names hkey
  refine ⟨?_, fun {key' time v'} => ?_, ?_, ?_⟩
  · rw [h.entries]
    exact put_new v m.clock hnew
  · simp only [Shelf.enter, Function.update_apply, List.mem_append,
      List.mem_singleton, Row.mk.injEq]
    split
    · next heq =>
      subst heq
      constructor
      · intro hplace
        cases hplace
        exact .inr ⟨rfl, rfl, rfl⟩
      · rintro (hr | ⟨rfl, -, rfl⟩)
        · exact absurd rfl (hnew _ hr)
        · rfl
    · next hne => simp [h.place, hne]
  · rw [List.pairwise_append]
    exact ⟨h.sorted, List.pairwise_singleton _ _, fun r hr r' hr' => by
      rw [List.mem_singleton.1 hr']
      exact h.early r hr⟩
  · intro r hr
    rcases List.mem_append.1 hr with hr | hr
    · exact Nat.lt_succ_of_lt (h.early r hr)
    · rw [List.mem_singleton.1 hr]
      exact Nat.lt_succ_self _

theorem replace (h : Shows m entries rows) {time : Nat} {w : Validator}
    (hkey : m.place key = some (time, w)) (v : Validator) :
    Shows (m.replace key time v) (Catalog.put (.text key) v entries)
      (rows.map (revised key v)) := by
  refine ⟨?_, fun {key' time' v'} => ?_, ?_, ?_⟩
  · rw [h.entries]
    exact put_old v h.nodup (h.mem_names.2 (by rw [hkey]; rfl))
  · rw [mem_revised]
    simp only [Shelf.replace, Function.update_apply]
    split
    · simp only [← h.place, hkey, Option.some.injEq, Prod.mk.injEq]
      constructor
      · rintro ⟨rfl, rfl⟩
        exact ⟨rfl, w, rfl, rfl⟩
      · rintro ⟨rfl, _, rfl, -⟩
        exact ⟨rfl, rfl⟩
    · exact h.place
  · refine List.pairwise_map.2 (h.sorted.imp fun hlt => ?_)
    rwa [revised_time, revised_time]
  · refine List.forall_mem_map.2 fun r hr => ?_
    rw [revised_time]
    exact h.early r hr

theorem remove (h : Shows m entries rows) :
    Shows (m.remove key) (entries.filter fun e => !e.1.same (.text key))
      (rows.filter fun r => r.name != key) := by
  refine ⟨?_, fun {key' time v} => ?_, h.sorted.filter _, fun r hr =>
    h.early r (List.mem_of_mem_filter hr)⟩
  · have hsame : (fun e : Value × Validator => !e.1.same (.text key)) ∘ Row.entry =
      fun r => r.name != key :=
      funext fun r => congrArg Bool.not (same_entry r key)
    rw [h.entries, List.filter_map, hsame]
  · simp only [Shelf.remove, Function.update_apply, List.mem_filter]
    split
    · next heq => simp [heq]
    · next hne => simp [h.place, hne]

theorem clear (m : Shelf) : Shows m.clear [] [] :=
  ⟨rfl, by simp [Shelf.clear], .nil, List.forall_mem_nil _⟩

end Shows

/-! ## Requests one by one -/

namespace Session

variable {s : Session} {m : Shelf} {rows : List Row} {key : String}

theorem found_eq (h : Shows m s.catalog.entries rows) :
    s.catalog.find? (.text key) = (m.place key).map (·.2) := h.find?_eq

theorem has_eq (h : Shows m s.catalog.entries rows) :
    s.catalog.has (.text key) = (m.place key).isSome := by
  rw [Catalog.has, found_eq h, Option.isSome_map]

/-- The reply to a request, and the rows of the catalog afterwards, are those of the map. -/
def Follows (s : Session) (m : Shelf) (q : Request) : Prop :=
  ∃ m' rows', m.Answers s.catalog.name q (s.perform q).1 m' ∧
    Shows m' (s.perform q).2.catalog.entries rows' ∧ (s.perform q).2.catalog.name = s.catalog.name

/-- A validator is entered if its name is free or may be replaced; else nothing changes. -/
theorem perform_register (s : Session) (key : String) (kind : Kind) (step : Step)
    (id : Option ObjectId) (replace : Bool) :
    s.perform (.register key (.validator kind step id) replace) =
      if !replace && s.catalog.has (.text key) then
        (.raised
          (.setup ⟨.operation, "Validator '" ++ key ++ "' already registered in " ++ s.catalog.name,
            Shelf.context s.catalog.name key⟩), s)
      else
        (.done,
          ⟨⟨s.catalog.name, Catalog.put (.text key) ⟨kind, step⟩ s.catalog.entries⟩, s.structs,
            s.log ++
              [⟨.debug, "Registered validator '" ++ key ++ "' in " ++ s.catalog.name⟩]⟩) := by
  simp only [perform, Catalog.register, Catalog.entered]
  cases !replace && s.catalog.has (.text key) <;> rfl

/-- What is no validator is refused, whether its name is free or not. -/
theorem perform_register_noValidator (s : Session) (key : String) (replace : Bool) {value : Value}
    (hvalue : ∀ kind step id, value ≠ .validator kind step id) :
    s.perform (.register key value replace) =
      (.raised (.setup ⟨.schema, "Only validators can be registered, got " ++ value.typeName,
        Shelf.context s.catalog.name key⟩), s) := by
  cases value with
  | validator kind step id => exact absurd rfl (hvalue kind step id)
  | _ => rfl

theorem validator_or_not (value : Value) :
    (∃ kind step id, value = .validator kind step id) ∨
    ∀ kind step id, value ≠ .validator kind step id := by
  cases value with
  | validator kind step id => exact .inl ⟨kind, step, id, rfl⟩
  | _ => exact .inr nofun

theorem register_follows (h : Shows m s.catalog.entries rows) (value : Value) (replace : Bool) :
    s.Follows m (.register key value replace) := by
  unfold Follows
  rcases validator_or_not value with ⟨kind, step, id, rfl⟩ | hvalue
  · rw [perform_register, has_eq h]
    cases hplace : m.place key with
    | none =>
      rw [Option.isSome_none, Bool.and_false]
      exact ⟨_, _, .entered hplace, h.enter hplace _, rfl⟩
    | some place =>
      cases replace with
      | true => exact ⟨_, _, .replaced hplace, h.replace hplace _, rfl⟩
      | false => exact ⟨_, _, .taken hplace, h, rfl⟩
  · rw [perform_register_noValidator s key replace hvalue]
    exact ⟨m, rows, .noValidator hvalue, h, rfl⟩

theorem unregister_follows (h : Shows m s.catalog.entries rows) :
    s.Follows m (.unregister key) := by
  unfold Follows
  simp only [perform, Catalog.unregister, found_eq h]
  cases hplace : m.place key with
  | none => exact ⟨m, rows, .notRemoved hplace, h, rfl⟩
  | some place => exact ⟨_, _, .removed hplace, h.remove, rfl⟩

/-- The names of the rows are the keys of the catalog. -/
theorem keys_eq (h : Shows m s.catalog.entries rows) :
    s.catalog.keys = (rows.map Row.name).map .text := by
  rw [Catalog.keys, h.entries, List.map_map, List.map_map]
  rfl

theorem count_eq (h : Shows m s.catalog.entries rows) :
    s.catalog.count = (rows.map Row.name).length := by
  rw [Catalog.count, h.entries, List.length_map, List.length_map]

theorem get_follows (h : Shows m s.catalog.entries rows) : s.Follows m (.get key) := by
  unfold Follows
  simp only [perform, Catalog.get, found_eq h, keys_eq h]
  cases hplace : m.place key with
  | none => exact ⟨m, rows, .notGot hplace h.lists, h, rfl⟩
  | some place => exact ⟨m, rows, .got hplace, h, rfl⟩

/-- Whether a blueprint can be built or not, the catalog stays as it is, and the structs that are
there stay. -/
theorem create_cases (s : Session) (settings : Settings) (config : List (Value × Value)) :
    (∃ v log, Blueprint.build (some s.catalog) settings config s.log = (.ok v, log) ∧
      s.perform (.create settings config) = (.done, ⟨s.catalog, s.structs ++ [v], log⟩)) ∨
    ∃ r log, s.perform (.create settings config) = (.raised r, { s with log }) := by
  rcases hbuild : Blueprint.build (some s.catalog) settings config s.log with ⟨r | v, log⟩
  · exact .inr ⟨r, log, by simp only [perform, ExceptT.run, hbuild]⟩
  · exact .inl ⟨v, log, rfl, by simp only [perform, ExceptT.run, hbuild]⟩

theorem create_follows (h : Shows m s.catalog.entries rows) (settings : Settings)
    (config : List (Value × Value)) : s.Follows m (.create settings config) := by
  unfold Follows
  rcases s.create_cases settings config with ⟨v, log, -, hperform⟩ | ⟨r, log, hperform⟩
  all_goals
    rw [hperform]
    exact ⟨m, rows, .created, h, rfl⟩

/-- A session replies to a request as the map of its catalog does, and shows the map afterwards. -/
theorem perform_follows (h : Shows m s.catalog.entries rows) : ∀ q : Request, s.Follows m q
  | .register _ value replace => register_follows h value replace
  | .unregister _ => unregister_follows h
  | .get _ => get_follows h
  | .has key => by
    simp only [Follows, perform, has_eq h, and_true]
    exact ⟨m, rows, .has, h⟩
  | .clear => ⟨m.clear, [], .cleared, .clear m, rfl⟩
  | .keys => by
    simp only [Follows, perform, keys_eq h, and_true]
    exact ⟨m, rows, .listed h.lists, h⟩
  | .count => by
    simp only [Follows, perform, count_eq h, and_true]
    exact ⟨m, rows, .counted h.lists, h⟩
  | .create settings config => create_follows h settings config
  | .judge .. => ⟨m, rows, .judged, h, rfl⟩

/-- A session replies to requests as the map of its catalog does, and shows the map at the end. -/
theorem run_follows : ∀ {s : Session} {m : Shelf} {rows : List Row} (requests : List Request),
    Shows m s.catalog.entries rows → ∃ m' rows', Shelf.Runs s.catalog.name m requests
      (s.run requests).1 m' ∧
      Shows m' (s.run requests).2.catalog.entries rows'
  | _, m, rows, [], h => ⟨m, rows, .nil m, h⟩
  | s, m, _, q :: rest, h => by
    obtain ⟨next, rows, hanswers, hshows, hname⟩ := perform_follows h q
    obtain ⟨last, rows, hruns, hshows⟩ := run_follows rest hshows
    -- The errors of what follows show the name that the catalog has now.
    rw [hname] at hruns
    exact ⟨last, rows, .cons hanswers hruns, hshows⟩

/-! ## What a request leaves -/

/-- A request leaves all but the log as it was, or it raises nothing and takes no struct away. -/
theorem perform_cases (s : Session) (q : Request) : (∃ log, (s.perform q).2 = { s with log }) ∨
    (∀ r, (s.perform q).1 ≠ .raised r) ∧ s.structs <+: (s.perform q).2.structs := by
  cases q with
  | register key value replace =>
    rcases validator_or_not value with ⟨kind, step, id, rfl⟩ | hvalue
    · rw [perform_register]
      split
      · exact .inl ⟨s.log, rfl⟩
      · exact .inr ⟨nofun, List.prefix_rfl⟩
    · rw [perform_register_noValidator s key replace hvalue]
      exact .inl ⟨s.log, rfl⟩
  | unregister key =>
    rcases hrun : (s.catalog.unregister (.text key)).run s.log with ⟨r | ⟨v, c⟩, log⟩
    all_goals simp only [perform, hrun]
    · exact .inl ⟨log, rfl⟩
    · exact .inr ⟨nofun, List.prefix_rfl⟩
  | get key =>
    rcases hrun : (s.catalog.get (.text key)).run s.log with ⟨r | v, log⟩
    all_goals
      simp only [perform, hrun]
      exact .inl ⟨log, rfl⟩
  | create settings config =>
    rcases s.create_cases settings config with ⟨v, log, -, hperform⟩ | ⟨r, log, hperform⟩
    all_goals rw [hperform]
    · exact .inr ⟨nofun, List.prefix_append _ _⟩
    · exact .inl ⟨log, rfl⟩
  | clear => exact .inr ⟨nofun, List.prefix_rfl⟩
  | has | keys | count | judge => exact .inl ⟨s.log, rfl⟩

/-- A request that raises leaves the catalog and the structs as they were. -/
theorem perform_raised {q : Request} {r : Raised} (h : (s.perform q).1 = .raised r) :
    (s.perform q).2.catalog = s.catalog ∧ (s.perform q).2.structs = s.structs := by
  rcases s.perform_cases q with ⟨log, hnext⟩ | ⟨hraises, -⟩
  · rw [hnext]
    exact ⟨rfl, rfl⟩
  · exact absurd h (hraises r)

/-- Structs are only ever added. -/
theorem perform_structs (s : Session) (q : Request) : s.structs <+: (s.perform q).2.structs := by
  rcases s.perform_cases q with ⟨log, hnext⟩ | ⟨-, hstructs⟩
  · have hsame : (s.perform q).2.structs = s.structs := by rw [hnext]
    exact hsame ▸ List.prefix_rfl
  · exact hstructs

theorem run_structs :
    ∀ (s : Session) (requests : List Request), s.structs <+: (s.run requests).2.structs
  | _, [] => List.prefix_rfl
  | s, q :: rest => (s.perform_structs q).trans (run_structs _ rest)

/-- Whatever is asked in between, the struct of a number judges as a relation says. -/
def JudgesBy (s : Session) (struct : Nat) (P : World → List Value → Call Value → Prop) : Prop :=
  ∀ (later : List Request) (w : World) (args : List Value),
    ∃ c, ((s.run later).2.perform (.judge struct w args)).1 = .judged (some c) ∧ P w args c

/-- A struct judges later as it does now. -/
theorem judgesBy_of_getElem? {struct : Nat} {v : Validator} (h : s.structs[struct]? = some v) :
    s.JudgesBy struct fun w args c => c = v.call w args := by
  intro later w args
  obtain ⟨more, hmore⟩ := s.run_structs later
  have hsame : (s.run later).2.structs[struct]? = some v := by
    rw [← hmore, List.getElem?_append_left (List.getElem?_eq_some_iff.1 h).1, h]
  refine ⟨_, ?_, rfl⟩
  simp only [perform, hsame, Option.map_some]

/-- What is created judges as what was built, whatever is asked later. -/
theorem create_judgesBy {settings : Settings} {config : List (Value × Value)}
    (h : (s.perform (.create settings config)).1 = .done) :
    ∃ v, (Blueprint.build (some s.catalog) settings config s.log).1 = .ok v ∧
      (s.perform (.create settings config)).2.JudgesBy s.structs.length fun w args c =>
      c = v.call w args := by
  rcases s.create_cases settings config with ⟨v, log, hbuild, hperform⟩ | ⟨r, log, hperform⟩
  · rw [hperform, hbuild]
    exact ⟨v, rfl, judgesBy_of_getElem? List.getElem?_concat_length⟩
  · rw [hperform] at h
    cases h

theorem create_done {settings : Settings} {config : List (Value × Value)} {v : Validator}
    (h : (Blueprint.build (some s.catalog) settings config).Makes v) :
    (s.perform (.create settings config)).1 = .done := by
  have hbuild := h s.log
  rcases hrun : Blueprint.build (some s.catalog) settings config s.log with ⟨r | u, log⟩
  · rw [hrun] at hbuild
    cases hbuild
  · simp only [perform, ExceptT.run, hrun]

/-! ## Whole runs -/

/-- The ways to ask for names agree with a map and with one another, and no name is told twice. -/
structure Tells (s : Session) (m : Shelf) (names : List String) : Prop where
  lists : m.Lists names
  nodup : names.Nodup
  keys : s.catalog.keys = names.map .text
  count : s.catalog.count = names.length
  has : ∀ key, s.catalog.has (.text key) = true ↔ key ∈ names
  found : ∀ key, s.catalog.find? (.text key) = (m.place key).map (·.2)

theorem tells_of_shows (h : Shows m s.catalog.entries rows) : s.Tells m (rows.map Row.name) where
  lists := h.lists
  nodup := h.nodup
  keys := keys_eq h
  count := count_eq h
  has key := by rw [has_eq h, h.mem_names]
  found _ := found_eq h

/-- Where names stand after a request: a new name comes last, and all others keep their order. -/
structure KeepsOrder (s : Session) (names : List String) : Prop where
  entered : ∀ {key : String} (kind : Kind) (step : Step) (id : Option ObjectId) (replace : Bool),
    key ∉ names →
      (s.perform (.register key (.validator kind step id) replace)).2.catalog.keys =
        (names ++ [key]).map .text
  replaced : ∀ {key : String} (kind : Kind) (step : Step) (id : Option ObjectId) (replace : Bool),
    key ∈ names →
      (s.perform (.register key (.validator kind step id) replace)).2.catalog.keys =
        names.map .text
  removed : ∀ key : String,
    (s.perform (.unregister key)).2.catalog.keys = (names.filter fun name => name != key).map .text
  cleared : (s.perform .clear).2.catalog.keys = []

theorem keepsOrder_of_shows (h : Shows m s.catalog.entries rows) :
    s.KeepsOrder (rows.map Row.name) where
  entered {key} kind step id replace hkey := by
    rw [h.mem_names, Option.not_isSome_iff_eq_none] at hkey
    rw [perform_register, has_eq h, hkey, Option.isSome_none, Bool.and_false]
    exact (keys_eq (h.enter hkey ⟨kind, step⟩)).trans (by rw [List.map_append]; rfl)
  replaced {key} kind step id replace hkey := by
    rw [h.mem_names, Option.isSome_iff_exists] at hkey
    obtain ⟨⟨time, w⟩, hplace⟩ := hkey
    rw [perform_register, has_eq h, hplace]
    cases replace with
    | true => exact (keys_eq (h.replace hplace ⟨kind, step⟩)).trans (by rw [Shows.names_revised])
    | false => exact keys_eq h
  removed key := by
    simp only [perform, Catalog.unregister, found_eq h]
    cases hplace : m.place key with
    | none =>
      have hkey : ∀ name ∈ rows.map Row.name, (name != key) = true := by
        simpa using h.not_mem_names hplace
      rw [List.filter_eq_self.2 hkey]
      exact keys_eq h
    | some place => exact (keys_eq h.remove).trans (by rw [List.filter_map]; rfl)
  cleared := rfl

/-- What is created judges by the validators that the catalog has at that time, whatever is asked
later. -/
structure Keeps (s : Session) : Prop where
  built : ∀ {settings : Settings} {config : List (Value × Value)},
    (s.perform (.create settings config)).1 = .done →
      ∃ v, (Blueprint.build (some s.catalog) settings config s.log).1 = .ok v ∧
        (s.perform (.create settings config)).2.JudgesBy s.structs.length fun w args c =>
        c = v.call w args
  described :
    ∀ {settings : Settings} {config : List (Value × Value)} {schema modeValue path message : Value},
    settings.HasTexts → Blueprint.DescribesWhole (some s.catalog) config schema modeValue path →
    schema.isTyped = true → message.isMessage = true →
      (s.perform (.create settings config)).1 = .done ∧
      ∃ u, (Schema.compile schema modeValue path message settings).Makes u ∧
        (s.perform (.create settings config)).2.JudgesBy s.structs.length fun w args c =>
          w.NeverCancels → u.staysWritable w args = true →
            c.isPromised = (u.call w args).isPromised ∧
            ((∃ answer, c.settle.2 = .ok answer ∧ (u.call w args).settle.2 = .ok answer) ∨
              ∃ f g, c.settle.2 = .error (.failure f) ∧
              (u.call w args).settle.2 = .error (.failure g) ∧
                f.leaves = g.leaves)

theorem keeps (s : Session) : s.Keeps where
  built := create_judgesBy
  described hs h ht hm := by
    obtain ⟨v, u, hv, hu, hreworded, hbare⟩ := h.twin hs ht hm
    have hdone := create_done hv
    obtain ⟨v', hv', hjudges⟩ := create_judgesBy hdone
    cases (hv s.log).symm.trans hv'
    refine ⟨hdone, u, hu, fun later w args => ?_⟩
    obtain ⟨c, hreply, rfl⟩ := hjudges later w args
    exact ⟨_, hreply, fun hw hrun => h.judgements hs ht hm hu hreworded hbare hw hrun⟩

/-- Whatever is asked of an empty catalog, it replies as a map that knows when each name was
entered. At every time its ways to tell the names agree, a new name comes last and all others keep
their order, what raises leaves everything as it was, and a struct goes on with the validators that
it was created with. -/
theorem run_orderly (label : String) (requests : List Request) : ∃ m names,
    Shelf.Runs label .empty requests ((start label).run requests).1 m ∧
    ((start label).run requests).2.Tells m names ∧
    ((start label).run requests).2.KeepsOrder names ∧
    (∀ q r, (((start label).run requests).2.perform q).1 = .raised r →
      (((start label).run requests).2.perform q).2.catalog =
      ((start label).run requests).2.catalog ∧
      (((start label).run requests).2.perform q).2.structs =
      ((start label).run requests).2.structs) ∧
    ((start label).run requests).2.Keeps := by
  have hstart : Shows .empty (start label).catalog.entries [] := .empty
  obtain ⟨m, rows, hruns, hshows⟩ := run_follows requests hstart
  exact ⟨m, rows.map Row.name, hruns, tells_of_shows hshows, keepsOrder_of_shows hshows,
    fun _ _ => perform_raised, keeps _⟩

open Blueprint (Signup.config Signup.input Signup.refuser Signup.world)

/-- A catalog with the validator that the blueprint of signing up refers to. -/
def signup : Session :=
  ((start "validators").run [.register "tag" (.ofValidator Signup.refuser) false]).2

/-- What accepts everything takes the place of the validator and is removed again; the struct that
was created before refuses as ever. -/
theorem signup_refuses : (signup.perform (.create .default Signup.config)).1 = .done ∧ ∃ c f,
    (((signup.perform (.create .default Signup.config)).2.run
      [.register "tag" (.validator .any .accept none) true, .unregister "tag"]).2.perform
        (.judge 0 Signup.world [Signup.input])).1 = .judged (some c) ∧
    c.settle.2 = .error (.failure f) ∧ f.leaves.length = 3 := by
  have hs : Settings.default.HasTexts := ⟨rfl, rfl⟩
  have hm : Value.null.isMessage = true := rfl
  obtain ⟨-, -, -, -, -, -, hkeeps⟩ :=
    run_orderly "validators" [.register "tag" (.ofValidator Signup.refuser) false]
  obtain ⟨hdone, u, hu, hjudges⟩ :=
    hkeeps.described hs Blueprint.Signup.config_describes (by decide +kernel) hm
  have hcompiled := Except.ok.inj ((hu []).symm.trans (Blueprint.Signup.schema_compiles []))
  obtain ⟨c, hreply, hsame⟩ := hjudges
    [.register "tag" (.validator .any .accept none) true, .unregister "tag"]
      Signup.world [Signup.input]
  rw [hcompiled] at hsame
  obtain ⟨f, g, hf, -, hleaves, hcount⟩ := Blueprint.Signup.three_leaves
    (hsame Blueprint.Signup.world_neverCancels Blueprint.Signup.compiled_stays).2
  exact ⟨hdone, c, f, hreply, hf, hleaves ▸ hcount⟩

end Session

end Attest
