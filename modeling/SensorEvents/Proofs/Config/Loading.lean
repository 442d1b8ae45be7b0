import SensorEvents.Command
import SensorEvents.Proofs.Session.Run

/-!
# Configurations from files

What a file gives is a configuration that was checked, with numbers that fit their words: a setting
is read with the limit of its type. So all that holds of accepted settings holds of what is loaded.
-/
namespace SensorEvents

/-! ## What a reading gives -/

namespace Metered

variable {α β : Type}

/-- Whatever a reading gives, if it gives anything, is as it should be. -/
def Gives (x : Metered α) (P : α → Prop) : Prop :=
  ∀ left a left', x left = some (a, left') → P a

variable {x : Metered α} {P : α → Prop} {Q : β → Prop}

theorem Gives.any (x : Metered α) : Gives x fun _ => True := fun _ _ _ _ => trivial

theorem Gives.pure {a : α} (h : P a) : Gives (pure a) P := by
  intro left b left' hb
  obtain ⟨rfl, -⟩ := Prod.mk.inj (Option.some.inj hb)
  exact h

theorem Gives.bind {f : α → Metered β} (hx : Gives x P) (hf : ∀ a, P a → Gives (f a) Q) :
    Gives (x >>= f) Q := by
  intro left b left' h
  obtain ⟨⟨a, between⟩, ha, hb⟩ := Option.bind_eq_some_iff.mp h
  exact hf a (hx left a between ha) between b left' hb

/-- What comes first may be anything. -/
theorem Gives.skip {f : α → Metered β} (hf : ∀ a, Gives (f a) Q) : Gives (x >>= f) Q :=
  (any x).bind fun a _ => hf a

theorem Gives.map {f : α → β} (hx : Gives x P) (hf : ∀ a, P a → Q (f a)) : Gives (f <$> x) Q := by
  rw [← bind_pure_comp]
  exact hx.bind fun a ha => .pure (hf a ha)

theorem Gives.mapM {f : β → Metered α} (h : ∀ b, Gives (f b) P) (items : List β) :
    Gives (items.mapM f) fun as => ∀ a ∈ as, P a := by
  induction items with
  | nil => exact .pure (List.forall_mem_nil _)
  | cons item items ih =>
    rw [List.mapM_cons]
    exact (h item).bind fun a ha => ih.bind fun as has =>
      .pure (List.forall_mem_cons.mpr ⟨ha, has⟩)

end Metered

namespace Record

variable {α : Type} {P : α → Prop} (r : Record) (name : String)

open Metered (Gives)

theorem part?_gives {read : Reading → Node → Metered α} (h : ∀ m node, Gives (read m node) P) :
    Gives (r.part? name read) P :=
  .skip fun node => h r.reading node

theorem partD?_gives {value : α} {read : Reading → Node → Metered α} (hvalue : P value)
    (h : ∀ m node, Gives (read m node) P) : Gives (r.partD? name value read) P := by
  unfold partD?
  cases r.entries.lookup name with
  | none => exact .pure hvalue
  | some node => exact h r.reading node

theorem defaulted?_gives {value : α} {read : Node → Option α} (hvalue : P value)
    (h : ∀ node a, read node = some a → P a) : Gives (r.defaulted? name value read) P := by
  refine r.partD?_gives name hvalue fun _ _ => .skip fun node => ?_
  intro left a left' ha
  obtain ⟨b, hb, hpair⟩ := Option.bind_eq_some_iff.mp ha
  obtain ⟨rfl, -⟩ := Prod.mk.inj (Option.some.inj hpair)
  exact h node b hb

end Record

/-! ## Numbers -/

namespace Node

theorem nat?_le {limit : Nat} {node : Node} {n : Nat} (h : node.nat? limit = some n) :
    n ≤ limit := by
  unfold nat? at h
  split at h
  · split_ifs at h with hle
    exact Option.some.inj h ▸ hle
  · split_ifs at h
    exact Option.some.inj h ▸ Nat.zero_le limit
  · split_ifs at h
    exact of_decide_eq_true (Option.filter_eq_some_iff.mp h).2
  · exact nomatch h

theorem optional?_forall {α : Type} {P : α → Prop} {read : Node → Option α}
    (h : ∀ node a, read node = some a → P a) {node : Node} {o : Option α}
    (ho : optional? read node = some o) : ∀ a ∈ o, P a := by
  have hread : ∀ node', (read node').map some = some o → ∀ a ∈ o, P a := by
    intro node' hmap a ha
    obtain ⟨b, hb, rfl⟩ := Option.map_eq_some_iff.mp hmap
    exact h node' a (hb.trans ha)
  unfold optional? at ho
  split at ho
  · obtain rfl := Option.some.inj ho
    exact nofun
  · split at ho
    · exact nomatch ho
    · obtain rfl := Option.some.inj ho
      exact nofun
    · exact hread _ ho
  · exact hread _ ho

end Node

/-! ## Settings -/

open Metered (Gives)

theorem InputRange.ofNode?_fits (m : Reading) (node : Node) :
    Gives (ofNode? m node) InputRange.Fits := by
  have hword (r : Record) (name : String) :
      Gives (r.defaulted? name none (Node.optional? word?)) fun o => ∀ n ∈ o, n ≤ Checked.max32 :=
    r.defaulted?_gives name nofun fun _ _ => Node.optional?_forall fun _ _ => Node.nat?_le
  exact .skip fun r => (hword r _).bind fun low hlow => (hword r _).bind fun high hhigh =>
    .skip fun _ => .skip fun _ => .pure ⟨hlow, hhigh⟩

/-- The input range of a trigger, which may be left out. -/
theorem Record.input_gives (r : Record) (name : String) :
    Gives (r.partD? name {} InputRange.ofNode?) InputRange.Fits :=
  r.partD?_gives name (by decide) InputRange.ofNode?_fits

theorem VelocityConfig.ofNode?_fits (m : Reading) (node : Node) :
    Gives (ofNode? m node) fun c => c.input.Fits :=
  .skip fun r => .skip fun _ => .skip fun _ => (r.input_gives _).bind fun _ h =>
    .skip fun _ => .skip fun _ => .skip fun _ => .pure h

theorem ThresholdConfig.ofNode?_fits (m : Reading) (node : Node) :
    Gives (ofNode? m node) fun c => c.input.Fits :=
  .skip fun r => .skip fun _ => .skip fun _ => .skip fun _ => (r.input_gives _).bind fun _ h =>
    .skip fun _ => .pure h

theorem PressureConfig.ofNode?_fits (m : Reading) (node : Node) :
    Gives (ofNode? m node) fun c => c.input.Fits :=
  .skip fun r => .skip fun _ => .skip fun _ => .skip fun _ => (r.input_gives _).bind fun _ h =>
    .skip fun _ => .pure h

theorem ContinuousConfig.ofNode?_fits (m : Reading) (node : Node) :
    Gives (ofNode? m node) fun c => c.input.Fits :=
  .skip fun r => (r.input_gives _).bind fun _ h => .pure h

theorem TriggerConfig.ofNode?_fits (m : Reading) (node : Node) :
    Gives (ofNode? m node) TriggerConfig.Fits := by
  refine .skip fun variant => ?_
  obtain ⟨kind, body⟩ := variant
  dsimp only
  split
  · exact (VelocityConfig.ofNode?_fits .below body).map fun _ h => h
  · exact (ThresholdConfig.ofNode?_fits .below body).map fun _ h => h
  · exact (PressureConfig.ofNode?_fits .below body).map fun _ h => h
  · exact (ContinuousConfig.ofNode?_fits .below body).map fun _ h => h

theorem ChannelConfig.ofNode?_fits (m : Reading) (node : Node) :
    Gives (ofNode? m node) ChannelConfig.Fits :=
  .skip fun r => .skip fun _ => .skip fun _ => .skip fun _ => .skip fun _ => .skip fun _ =>
    (r.part?_gives _ TriggerConfig.ofNode?_fits).bind fun _ h => .skip fun _ => .pure h

theorem SensorConfig.ofNode?_fits (m : Reading) (node : Node) :
    Gives (ofNode? m node) SensorConfig.Fits := by
  have hchannels (r : Record) (name : String) :
      Gives (r.part? name fun m node => node.items? m >>= fun items =>
        items.2.mapM (ChannelConfig.ofNode? items.1)) fun channels => ∀ c ∈ channels, c.Fits :=
    r.part?_gives name fun _ _ => .skip fun items =>
      .mapM (ChannelConfig.ofNode?_fits items.1) items.2
  exact .skip fun r => .skip fun _ => .skip fun _ => (hchannels r _).bind fun _ h => .pure h

/-! ## Files -/

theorem Checked.mapError_eq_ok {ε ε' α : Type} {f : ε → ε'} {x : Except ε α} {a : α} :
    x.mapError f = .ok a ↔ x = .ok a := by
  cases x <;> simp [Except.mapError]

theorem Checked.toOption_eq_some {ε α : Type} {x : Except ε α} {a : α} :
    x.toOption = some a ↔ x = .ok a := by
  cases x <;> simp [Except.toOption]

/-- What is loaded was checked, and fits. -/
theorem loadConfig_accepted {path : String} {file : FileContent} {c : SensorConfig}
    (h : loadConfig path file = .ok c) : c.validate = .ok () ∧ c.Fits := by
  obtain ⟨text, -, h⟩ := Checked.bind_eq_ok.mp h
  cases hread : SensorConfig.ofYaml? text with
  | none =>
    rw [hread] at h
    exact nomatch h
  | some config =>
    rw [hread] at h
    obtain ⟨hvalid, h⟩ := Checked.seq_eq_ok.mp h
    obtain rfl := Except.ok.inj h
    obtain ⟨document, -, hdocument⟩ := Option.bind_eq_some_iff.mp hread
    obtain ⟨⟨given, left⟩, hgiven, rfl⟩ := Option.map_eq_some_iff.mp hdocument
    exact ⟨Checked.mapError_eq_ok.mp hvalid, SensorConfig.ofNode?_fits _ _ _ _ _ hgiven⟩

theorem loadTrace_eq_ok {path : String} {file : FileContent} {t : Trace}
    (h : loadTrace path file = .ok t) : ∃ text, Trace.ofText text = .ok t := by
  obtain ⟨text, -, h⟩ := Checked.bind_eq_ok.mp h
  exact ⟨text, Checked.mapError_eq_ok.mp h⟩

end SensorEvents
