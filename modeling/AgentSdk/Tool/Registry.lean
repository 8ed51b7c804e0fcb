import AgentSdk.Tool.Validator

/-!
# The tool registry

`Registry` maps tool names to tools under a read-write mutex. `Register`
refuses a nil tool, an empty name and a name already in the map, and
otherwise adds the tool under its name; `Get` looks a name up; `List`
returns the tools; `SetValidator` swaps the validator; `Execute` looks the
tool up, checks the parameters against its schema with the validator when
both are set, and runs the tool.

## Runs

Every method holds the mutex while it touches the registry, so concurrent
calls act one after another, in some order. A run is that order, as the
list of the calls that write (`Register` and `SetValidator`); a call that
only reads (`Get`, `List`, `Execute`) sees the registry that some prefix of
the run left. Over any run the map holds the tools whose `Register`
returned nil, in order, each under its own non-empty name, and no name
twice (`run_tools`): no registration is lost and none is made twice. So
`Get` returns the first tool offered under a name, whatever was offered
after it (`get_run`).

## `Execute` and the default validator

With the validator `NewRegistry` installs, `Execute` runs a registered tool
exactly when the parameters conform to the tool's schema, in the sense of
`Tool/Validator.lean`, and otherwise returns the validator's error under
the tool's name without running it (`execute_defaultValidator`). This
holds whatever order `Validate` visits the parameters in, away from the
cases where `Validate` itself departs from the type table: a nil
`*JSONSchema` property definition, a nil map, an infinite float.

Go's `range` over the map takes its entries in an order it leaves open;
`List` takes that order as an argument, any listing of the entries. The
MCP client the registry holds is not read by these methods, and the
context `Execute` passes on is the tool's business.
-/

namespace Tool

/-- **`Tool`**, the interface, with the methods the registry calls:
`Name`, `Schema`, and `Execute` on the parameters, whose `*ToolResult` the
registry hands back as it is. -/
structure Impl (α : Type) where
  Name : String
  Schema : Option JSONSchema
  Execute : Option ValueMap → Except GoError α

/-- **`Validator`**: `Validate(params, schema)`, with the order in which a
validator that ranges over the parameters visits them. -/
abbrev Validator := Option ValueMap → JSONSchema → List (String × Value) →
  Except GoPanic (Option GoError)

/-- **`DefaultValidator`**. -/
def defaultValidator (parse : NumberParse) : Validator :=
  fun params schema order => validate parse params (some schema) order

/-- **`Registry`**: the entries of the map `tools`, and `validator`, nil
or an interface value. -/
structure Registry (α : Type) where
  tools : List (String × Impl α)
  validator : Option Validator

variable {α : Type}

/-- **`NewRegistry`**. -/
def newRegistry (parse : NumberParse) : Registry α := ⟨[], some (defaultValidator parse)⟩

/-- **`Register`**: the registry after the call, and its error. -/
def Registry.register (r : Registry α) : Option (Impl α) → Registry α × Option GoError
  | none => (r, some ⟨"tool is nil"⟩)
  | some t =>
    if t.Name = "" then (r, some ⟨"tool name is empty"⟩)
    else if (r.tools.lookup t.Name).isSome then
      (r, some ⟨"tool " ++ t.Name ++ " already registered"⟩)
    else (⟨r.tools ++ [(t.Name, t)], r.validator⟩, none)

/-- **`Get`**. -/
def Registry.get (r : Registry α) (name : String) : Except GoError (Impl α) :=
  match r.tools.lookup name with
  | some t => .ok t
  | none => .error ⟨"tool " ++ name ++ " not found"⟩

/-- **`List`**, for the order `order` in which `range` visits the
entries of the map. -/
def Registry.list (order : List (String × Impl α)) : List (Impl α) :=
  order.map Prod.snd

/-- **`SetValidator`**. -/
def Registry.setValidator (r : Registry α) (v : Option Validator) : Registry α :=
  { r with validator := v }

/-- **`Execute`**, with the order in which the validator visits the
parameters: a panic of the validator, or what `Execute` returns. -/
def Registry.execute (r : Registry α) (name : String) (params : Option ValueMap)
    (order : List (String × Value)) : Except GoPanic (Except GoError α) :=
  match r.get name with
  | .error err => .ok (.error err)
  | .ok t =>
    match t.Schema, r.validator with
    | some schema, some v =>
      match v params schema order with
      | .error p => .error p
      | .ok (some err) => .ok (.error ⟨"tool " ++ name ++ " validation failed: " ++ err.Error⟩)
      | .ok none => .ok (t.Execute params)
    | _, _ => .ok (t.Execute params)

/-! ## Runs -/

/-- **A call that writes to the registry.** -/
inductive Call (α : Type) where
  | register (t : Option (Impl α))
  | setValidator (v : Option Validator)

/-- One call: the registry after it, and its error. -/
def Registry.step (r : Registry α) : Call α → Registry α × Option GoError
  | .register t => r.register t
  | .setValidator v => (r.setValidator v, none)

/-- **A run**: the registry after the calls, and the error of each. -/
def Registry.run (r : Registry α) : List (Call α) → Registry α × List (Option GoError)
  | [] => (r, [])
  | c :: cs => ((r.step c).1.run cs |>.1, (r.step c).2 :: ((r.step c).1.run cs).2)

/-- The tool a call offers. -/
def Call.offered : Call α → Option (Impl α)
  | .register t => t
  | .setValidator _ => none

/-- **The tools whose `Register` returned nil**, from the calls and their
errors. -/
def registered : List (Call α) → List (Option GoError) → List (Impl α)
  | c :: cs, e :: es =>
    match c.offered, e with
    | some t, none => t :: registered cs es
    | _, _ => registered cs es
  | _, _ => []

/-- The entry of a tool in the map. -/
def Impl.entry (t : Impl α) : String × Impl α := (t.Name, t)

/-- **A map `Register` could have built**: each tool under its own
non-empty name, and no name twice. -/
structure Registry.WF (r : Registry α) : Prop where
  keys : ∀ p ∈ r.tools, p = p.2.entry
  names : ∀ p ∈ r.tools, p.1 ≠ ""
  nodup : (r.tools.map Prod.fst).Nodup

theorem newRegistry_wf (parse : NumberParse) : (newRegistry parse : Registry α).WF :=
  ⟨nofun, nofun, List.nodup_nil⟩

theorem lookup_isSome_iff {β : Type} {tools : List (String × β)} {name : String} :
    (tools.lookup name).isSome ↔ name ∈ tools.map Prod.fst := by
  induction tools with
  | nil => simp
  | cons p ps ih =>
    rcases p with ⟨k, t⟩
    by_cases h : name = k <;> simp [lookup_cons_eq, h, ih]

/-- **What `Register` does**: it adds the tool when it is offered under a
non-empty name that is not in the map, and otherwise leaves the map. -/
theorem register_cases (r : Registry α) (t : Option (Impl α)) :
    (∃ u, t = some u ∧ u.Name ≠ "" ∧ u.Name ∉ r.tools.map Prod.fst ∧
      r.register t = (⟨r.tools ++ [u.entry], r.validator⟩, none)) ∨
    ((r.register t).1 = r ∧ (r.register t).2 ≠ none ∧
      ∀ u, t = some u → u.Name = "" ∨ u.Name ∈ r.tools.map Prod.fst) := by
  rcases t with _ | u
  · exact .inr ⟨rfl, nofun, nofun⟩
  · simp only [Registry.register]
    split_ifs with h₁ h₂
    · exact .inr ⟨rfl, nofun, fun _ h => .inl (Option.some.inj h ▸ h₁)⟩
    · exact .inr ⟨rfl, nofun, fun _ h => .inr (Option.some.inj h ▸ lookup_isSome_iff.mp h₂)⟩
    · exact .inl ⟨u, rfl, h₁, fun h => h₂ (lookup_isSome_iff.mpr h), rfl⟩

theorem register_wf {r : Registry α} (hr : r.WF) (t : Option (Impl α)) : (r.register t).1.WF := by
  rcases register_cases r t with ⟨u, -, hu, hnew, heq⟩ | ⟨heq, -, -⟩
  · rw [heq]
    refine ⟨fun p hp => ?_, fun p hp => ?_, ?_⟩
    · rcases List.mem_append.mp hp with hp | hp
      · exact hr.keys p hp
      · rw [List.mem_singleton.mp hp]; rfl
    · rcases List.mem_append.mp hp with hp | hp
      · exact hr.names p hp
      · rw [List.mem_singleton.mp hp]; exact hu
    · simp only [List.Nodup, List.map_append, List.pairwise_append] at hr ⊢
      refine ⟨hr.nodup, List.pairwise_singleton _ _, fun a ha b hb hab => ?_⟩
      have hb : b = u.Name := List.mem_singleton.mp hb
      subst hab hb
      exact hnew ha
  · rw [heq]; exact hr

theorem step_tools (r : Registry α) (c : Call α) :
    (r.step c).1.tools = r.tools ++ (match c.offered, (r.step c).2 with
      | some t, none => [t.entry]
      | _, _ => []) := by
  cases c with
  | setValidator v => simp [Registry.step, Registry.setValidator, Call.offered]
  | register t =>
    rcases register_cases r t with ⟨u, rfl, -, -, heq⟩ | ⟨heq, hne, -⟩
    · simp only [Registry.step, heq, Call.offered]
    · simp only [Registry.step, Call.offered, heq]
      rcases t with _ | u
      · simp
      · obtain ⟨e, he⟩ := Option.ne_none_iff_exists'.mp hne
        simp [he]

/-- **A run from a map `Register` could have built** appends the tools
whose `Register` returned nil, each under its own name, and leaves such a
map. -/
theorem run_tools_eq (r : Registry α) (hr : r.WF) (calls : List (Call α)) :
    (r.run calls).1.tools =
        r.tools ++ (registered calls (r.run calls).2).map Impl.entry ∧
      (r.run calls).1.WF := by
  induction calls generalizing r with
  | nil => exact ⟨by simp [Registry.run, registered], hr⟩
  | cons c cs ih =>
    have hwf : (r.step c).1.WF := by
      cases c with
      | register t => exact register_wf hr t
      | setValidator v => exact ⟨hr.keys, hr.names, hr.nodup⟩
    obtain ⟨htools, hwf'⟩ := ih (r.step c).1 hwf
    refine ⟨?_, hwf'⟩
    simp only [Registry.run, htools, step_tools, registered]
    split <;> simp_all

/-- **No registration is lost or made twice.** After any run from a map
`Register` could have built, the map is the one before with the tools whose
`Register` returned nil added in order, each under its own non-empty name
and no name twice, and `List`, in whatever order `range` visits the map,
returns the tools before and those, each once. -/
theorem run_tools (r : Registry α) (hr : r.WF) (calls : List (Call α)) :
    (r.run calls).1.tools =
        r.tools ++ (registered calls (r.run calls).2).map Impl.entry ∧
      (r.run calls).1.WF ∧
      ∀ order : List (String × Impl α), order.Perm (r.run calls).1.tools →
        (Registry.list order).Perm
          (r.tools.map Prod.snd ++ registered calls (r.run calls).2) := by
  obtain ⟨htools, hwf⟩ := run_tools_eq r hr calls
  refine ⟨htools, hwf, fun order horder => ?_⟩
  rw [htools] at horder
  simpa [Registry.list, List.map_map, Function.comp_def, Impl.entry] using horder.map Prod.snd

/-- Two tools offered under one name and a nil tool: the second offer and
the nil tool are refused, and the map holds the first. -/
theorem run_tools_echo :
    let echo₁ : Impl Nat := ⟨"echo", none, fun _ => .ok 1⟩
    let echo₂ : Impl Nat := ⟨"echo", none, fun _ => .ok 2⟩
    let calls := [Call.register (some echo₁), .register (some echo₂), .register none]
    let parse : NumberParse := ⟨fun _ => true, fun _ => true⟩
    (newRegistry parse : Registry Nat).WF ∧
      ((newRegistry parse).run calls).1.tools =
          (newRegistry parse).tools ++
            (registered calls ((newRegistry parse).run calls).2).map Impl.entry ∧
        ((newRegistry parse).run calls).1.WF ∧
        ∀ order : List (String × Impl Nat), order.Perm ((newRegistry parse).run calls).1.tools →
          (Registry.list order).Perm
            ((newRegistry parse).tools.map Prod.snd ++
              registered calls ((newRegistry parse).run calls).2) :=
  ⟨newRegistry_wf _, run_tools _ (newRegistry_wf _) _⟩

/-- **A name's entry after a run**: the one before, or else the first tool
offered under the name. -/
theorem lookup_run (r : Registry α) (calls : List (Call α)) {name : String} (hname : name ≠ "") :
    (r.run calls).1.tools.lookup name =
      (r.tools.lookup name).or ((calls.filterMap Call.offered).find? (·.Name = name)) := by
  induction calls generalizing r with
  | nil =>
    show r.tools.lookup name = _
    cases r.tools.lookup name <;> rfl
  | cons c cs ih =>
    simp only [Registry.run, ih]
    cases c with
    | setValidator v => rfl
    | register t =>
      rcases register_cases r t with ⟨u, rfl, -, -, heq⟩ | ⟨heq, -, hname'⟩
      · simp only [Registry.step, heq, List.lookup_append, lookup_cons_eq, List.lookup_nil, Impl.entry, Option.or_assoc,
          Call.offered, List.filterMap_cons, List.find?_cons, decide_eq_true_eq]
        by_cases h : u.Name = name <;> simp [h, Ne.symm]
      · simp only [Registry.step, heq]
        rcases t with _ | u
        · rfl
        · simp only [Call.offered, List.filterMap_cons, List.find?_cons, decide_eq_true_eq]
          by_cases h : u.Name = name
          · have hmem : name ∈ r.tools.map Prod.fst :=
              h ▸ (hname' u rfl).resolve_left (by rw [h]; exact hname)
            obtain ⟨t', ht'⟩ := Option.isSome_iff_exists.mp (lookup_isSome_iff.mpr hmem)
            simp [ht', h]
          · simp [h]

/-- **`Get` after a run returns the first tool offered under the name.**
From `NewRegistry`, whatever the calls, `Get` of a non-empty name returns
the first tool a `Register` call offered under it, and `tool … not found`
when none was. -/
theorem get_run (parse : NumberParse) (calls : List (Call α)) {name : String}
    (hname : name ≠ "") :
    ((newRegistry parse).run calls).1.get name =
      match (calls.filterMap Call.offered).find? (·.Name = name) with
      | some t => .ok t
      | none => .error ⟨"tool " ++ name ++ " not found"⟩ := by
  rw [Registry.get, lookup_run (newRegistry parse) calls hname]
  rfl

/-- The second tool offered under a name is not the one `Get` returns. -/
theorem get_run_echo :
    let echo₁ : Impl Nat := ⟨"echo", none, fun _ => .ok 1⟩
    let echo₂ : Impl Nat := ⟨"echo", none, fun _ => .ok 2⟩
    let calls := [Call.register (some echo₁), .register (some echo₂)]
    let parse : NumberParse := ⟨fun _ => true, fun _ => true⟩
    "echo" ≠ "" ∧
      ((newRegistry parse).run calls).1.get "echo" =
        match (calls.filterMap Call.offered).find? (·.Name = "echo") with
        | some t => .ok t
        | none => .error ⟨"tool " ++ "echo" ++ " not found"⟩ :=
  ⟨by decide, get_run _ _ (by decide)⟩

/-! ## `Execute` -/

/-- **`Execute` with the default validator runs a registered tool exactly
when the parameters conform to its schema**, in any order of the loop of
`Validate`, away from a nil `*JSONSchema` definition, a nil map and an
infinite float; otherwise it returns the error `Validate` gave, under the
tool's name. -/
theorem execute_defaultValidator {parse : NumberParse} {r : Registry α}
    (hv : r.validator = some (defaultValidator parse)) {name : String} {t : Impl α}
    (ht : r.get name = .ok t) {params : Option ValueMap} {order : List (String × Value)}
    (horder : order.Perm (params.getD []))
    (hnil : ∀ s, t.Schema = some s →
      ∀ kv ∈ params.getD [], s.Properties.lookup kv.1 ≠ some (.schema none))
    (hplain : ∀ kv ∈ params.getD [], kv.2 ≠ .object none ∧ isInfinite kv.2 = false) :
    (Conforms parse params t.Schema → r.execute name params order = .ok (t.Execute params)) ∧
      (¬Conforms parse params t.Schema → ∃ err : GoError,
        validate parse params t.Schema order = .ok (some err) ∧ r.execute name params order =
          .ok (.error ⟨"tool " ++ name ++ " validation failed: " ++ err.Error⟩)) := by
  have hiff := validate_eq_ok_none_iff parse horder hnil hplain
  obtain ⟨res, hres, -⟩ := validate_ok parse horder hnil
  rcases hs : t.Schema with _ | s
  · exact ⟨fun _ => by simp [Registry.execute, ht, hs], fun h => (h trivial).elim⟩
  · rw [hs] at hiff hres
    simp only [Registry.execute, ht, hs, hv, defaultValidator, hres]
    rcases res with _ | err
    · exact ⟨fun _ => rfl, fun h => absurd (hiff.mp (hres ▸ rfl)) h⟩
    · refine ⟨fun h => ?_, fun _ => ⟨err, rfl, rfl⟩⟩
      have := hiff.mpr h
      rw [hres] at this
      cases this

/-- A tool whose schema asks for a string `text`, called with one. -/
theorem execute_defaultValidator_echo :
    let parse : NumberParse := ⟨fun _ => true, fun _ => true⟩
    let schema : JSONSchema :=
      ⟨[("text", .value (.object (some [("type", .string "string")])))], ["text"]⟩
    let echo : Impl Nat := ⟨"echo", some schema, fun _ => .ok 1⟩
    let r := ((newRegistry parse).register (some echo)).1
    let params : ValueMap := [("text", .string "hi")]
    r.validator = some (defaultValidator parse) ∧ r.get "echo" = .ok echo ∧
      params.Perm ((some params).getD []) ∧
      (∀ s, echo.Schema = some s →
        ∀ kv ∈ (some params).getD [], s.Properties.lookup kv.1 ≠ some (.schema none)) ∧
      (∀ kv ∈ (some params).getD [], kv.2 ≠ .object none ∧ isInfinite kv.2 = false) ∧
      (Conforms parse (some params) echo.Schema →
          r.execute "echo" (some params) params = .ok (echo.Execute (some params))) ∧
        (¬Conforms parse (some params) echo.Schema → ∃ err : GoError,
          validate parse (some params) echo.Schema params = .ok (some err) ∧
            r.execute "echo" (some params) params =
              .ok (.error ⟨"tool " ++ "echo" ++ " validation failed: " ++ err.Error⟩)) := by
  intro parse schema echo r params
  have hnil : ∀ s, echo.Schema = some s →
      ∀ kv ∈ (some params).getD [], s.Properties.lookup kv.1 ≠ some (.schema none) := by
    rintro s ⟨⟩ kv hkv
    simp only [Option.getD_some, params, List.mem_singleton] at hkv
    subst hkv
    simp [schema, lookup_cons_eq]
  have hplain : ∀ kv ∈ (some params).getD [], kv.2 ≠ .object none ∧ isInfinite kv.2 = false := by
    simp [params, isInfinite]
  exact ⟨rfl, rfl, List.Perm.refl _, hnil, hplain,
    @execute_defaultValidator Nat parse r rfl "echo" echo rfl (some params) params
      (List.Perm.refl _) hnil hplain⟩

end Tool
