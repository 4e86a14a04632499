import Mathlib.Data.List.Perm.Basic
import ServiceCall.Proofs.Invoker.Positional
/-!
# The order of parameters

The parameters of a method are the fields that the input's declaration has, by ascending
number. So they stand in the order of the declaration, and the arguments reach the fields in
that order, exactly if the declared numbers ascend (`lists_declared_iff`, `fills_declared_iff`).
-/

namespace ServiceCall

/-- Declared fields stand by ascending number. -/
def Source.Ascending (fields : List Source.Field) : Prop :=
  fields.Pairwise fun a b => a.number < b.number

namespace Invoker

variable {World : Type}

/-- The signature lists the fields as the parameters. -/
def Lists (i : Invoker World) (fields : List Source.Field) : Prop :=
  i.signature.parameters.map (·.1) = fields.map (·.name)

/-- In the object that is made of arguments every one of them stands under the name of the field at
its place. -/
def Fills (i : Invoker World) (fields : List Source.Field) : Prop :=
  ∀ (args : List Json) (k : Nat) (f : Source.Field) (a : Json),
    fields[k]? = some f → args[k]? = some a → (bodyOf i.parameters args).get? f.name = some a

variable {i : Invoker World} {d : Names.Declared}

theorem lists_iff {fields : List Source.Field} :
    i.Lists fields ↔ i.parameters.map (·.name) = fields.map (·.name) := by
  rw [Lists, signature, Signature.ofMethod, List.map_map]
  rfl

/-! ## Declared and resolved fields -/

theorem map_name_eq {fields : List Source.Field} {fs : List Field}
    (h : List.Forall₂ Field.Declares fields fs) : fs.map (·.name) = fields.map (·.name) := by
  rw [eq_comm, ← List.forall₂_eq_eq_eq, List.forall₂_map_left_iff, List.forall₂_map_right_iff]
  exact h.imp fun _ _ hf => hf.name.symm

theorem ascending_iff {fields : List Source.Field} {fs : List Field}
    (h : List.Forall₂ Field.Declares fields fs) :
    Source.Ascending fields ↔ fs.Pairwise fun a b => a.number < b.number := by
  have hnumbers : fields.map (·.number) = fs.map fun f => (f.number : Int) := by
    rw [← List.forall₂_eq_eq_eq, List.forall₂_map_left_iff, List.forall₂_map_right_iff]
    exact h.imp fun _ _ hf => hf.number.symm
  have hpairwise : Source.Ascending fields ↔ (fields.map (·.number)).Pairwise (· < ·) :=
    List.pairwise_map.symm
  rw [hpairwise, hnumbers, List.pairwise_map]
  simp only [Int.ofNat_lt]

theorem eq_of_map_eq {α β : Type} {f : α → β} {l l' : List α} (hperm : l.Perm l')
    (hn : (l'.map f).Nodup) (h : l.map f = l'.map f) : l = l' := by
  refine List.ext_getElem? fun k => ?_
  have hk := congrArg (·[k]?) h
  simp only [List.getElem?_map] at hk
  cases ha : l[k]? with
  | none =>
    rw [ha, Option.map_none, eq_comm, Option.map_eq_none_iff] at hk
    exact hk.symm
  | some a =>
    rw [ha, Option.map_some, eq_comm, Option.map_eq_some_iff] at hk
    obtain ⟨b, hb, hab⟩ := hk
    have heq := List.inj_on_of_nodup_map hn (List.mem_of_getElem? hb)
      (hperm.mem_iff.1 (List.mem_of_getElem? ha)) hab
    rw [hb, heq]

/-- The declared fields in the order of the parameters. -/
theorem exists_ascending (hp : i.pool.Loaded)
    (hd : MessageType.Declares d (i.pool.messageType i.method.input)) :
    ∃ fields : List Source.Field, fields.Perm d.2.fields ∧ Source.Ascending fields ∧
      i.Lists fields := by
  obtain ⟨fields, hfields, hperm⟩ :=
    List.perm_comp_forall₂ (MessageType.fields_perm _) hd.fields.flip
  refine ⟨fields, hperm, ?_, lists_iff.2 (map_name_eq hfields.flip)⟩
  exact (ascending_iff hfields.flip).2
    (MessageType.pairwise_fields (hp.wellFormed_messageType i.method.input).numbers)

/-! ## Arguments under names -/

/-- Arguments reach the fields in the order in which the signature lists them. -/
theorem fills_of_lists (hp : i.pool.Loaded) {fields : List Source.Field} (h : i.Lists fields) :
    i.Fills fields := by
  intro args k f a hf ha
  have hname : (i.parameters.map (·.name))[k]? = some f.name := by
    rw [lists_iff.1 h, List.getElem?_map, hf]
    rfl
  refine (Json.get?_ofMembers (nodup_keys_zip hp i.method.input args)).2 ?_
  exact List.mem_of_getElem? (i := k) (List.getElem?_zip_eq_some.2 ⟨hname, ha⟩)

/-- Arguments that are all different show the order. -/
theorem lists_of_fills (hp : i.pool.Loaded) {fields : List Source.Field}
    (hlength : fields.length = i.parameters.length) (h : i.Fills fields) : i.Lists fields := by
  rw [lists_iff]
  refine List.ext_getElem? fun k => ?_
  cases hf : fields[k]? with
  | none =>
    rw [List.getElem?_eq_none_iff] at hf
    rw [List.getElem?_eq_none (by simpa using hlength ▸ hf),
      List.getElem?_eq_none (by simpa using hf)]
  | some f =>
    obtain ⟨hk, -⟩ := List.getElem?_eq_some_iff.1 hf
    have hget := h ((List.range fields.length).map fun n : Nat => Json.integer n) k f (.integer k) hf
      (by rw [List.getElem?_map, List.getElem?_range hk, Option.map_some])
    have hmem := (Json.get?_ofMembers (nodup_keys_zip hp i.method.input _)).1 hget
    obtain ⟨j, hj⟩ := List.getElem?_of_mem hmem
    obtain ⟨hname, harg⟩ := List.getElem?_zip_eq_some.1 hj
    rw [List.getElem?_map, Option.map_eq_some_iff] at harg
    obtain ⟨n, hn, hnk⟩ := harg
    obtain ⟨hlt, rfl⟩ := List.getElem?_eq_some_iff.1 hn
    rw [List.getElem_range] at hnk
    obtain rfl : j = k := Int.ofNat_inj.1 (Json.integer.inj hnk)
    refine hname.trans ?_
    rw [List.getElem?_map, hf, Option.map_some]

theorem lists_declared_iff (hp : i.pool.Loaded)
    (hd : MessageType.Declares d (i.pool.messageType i.method.input)) :
    i.Lists d.2.fields ↔ Source.Ascending d.2.fields := by
  have hnumbers := (hp.wellFormed_messageType i.method.input).numbers
  rw [ascending_iff hd.fields, ← MessageType.fields_eq_declared_iff hnumbers, lists_iff,
    ← map_name_eq hd.fields]
  constructor
  · exact eq_of_map_eq (MessageType.fields_perm _) (hp.nodup_name _)
  · intro h
    rw [parameters, h]

theorem fills_declared_iff (hp : i.pool.Loaded)
    (hd : MessageType.Declares d (i.pool.messageType i.method.input)) :
    i.Fills d.2.fields ↔ Source.Ascending d.2.fields := by
  rw [← lists_declared_iff hp hd]
  have hlength : d.2.fields.length = i.parameters.length :=
    hd.fields.length_eq.trans (MessageType.fields_perm _).length_eq.symm
  exact ⟨lists_of_fills hp hlength, fills_of_lists hp⟩

/-- The parameters of any method are the declared fields of its input by ascending number, and the
arguments reach the fields in this order. It is the order of the declaration exactly if the
declared numbers ascend. -/
theorem parameters_by_number {p : Pool} {files : List Source.File} (hp : p.LoadedFrom files)
    {s : Service} (hs : s ∈ p.services) {m : Method} (hm : m ∈ s.methods) (q : Proxy World) :
    ∃ d ∈ Pool.declared files, d.1 = m.input ∧
      (∃ fields : List Source.Field, fields.Perm d.2.fields ∧ Source.Ascending fields ∧
        Lists ⟨p, m, q⟩ fields ∧ Fills ⟨p, m, q⟩ fields) ∧
      (Lists ⟨p, m, q⟩ d.2.fields ↔ Source.Ascending d.2.fields) ∧
      (Fills ⟨p, m, q⟩ d.2.fields ↔ Source.Ascending d.2.fields) ∧
      ∀ (args : List Json) (w : World), args.length ≤ d.2.fields.length →
        invoke ⟨p, m, q⟩ args w =
          invokeMessage ⟨p, m, q⟩ (bodyOf (p.messageType m.input).fields args) w := by
  obtain ⟨d, hd, hname⟩ := List.mem_map.1 (hp.origin.inputs s hs m hm)
  have hloaded : p.Loaded := ⟨files, hp⟩
  have hdeclares : MessageType.Declares d (p.messageType m.input) :=
    hname ▸ hp.declares_messageType hd
  obtain ⟨fields, hperm, hascending, hlists⟩ :=
    exists_ascending (i := ⟨p, m, q⟩) hloaded hdeclares
  refine ⟨d, hd, hname, ⟨fields, hperm, hascending, hlists, fills_of_lists hloaded hlists⟩,
    lists_declared_iff hloaded hdeclares, fills_declared_iff hloaded hdeclares, fun args w hlen => ?_⟩
  refine invoke_of_le ?_ w
  rw [hdeclares.fields.length_eq, ← (MessageType.fields_perm _).length_eq] at hlen
  exact hlen

/-- A file with a service for a message whose numbers ascend and for one whose numbers do not. -/
def orderFile : Source.File where
  name := "order.proto"
  package := "order"
  dependencies := []
  publicDependencies := []
  weakDependencies := []
  messages := [Standard.message "Ordered" [Standard.text "first" 1, Standard.text "second" 2],
    Standard.message "Swapped" [Standard.text "first" 2, Standard.text "second" 1]]
  enums := []
  services := [⟨"Calls", [⟨"ordered", ".order.Ordered", ".order.Ordered", false, false⟩,
    ⟨"swapped", ".order.Swapped", ".order.Swapped", false, false⟩]⟩]
  extensions := []
  edition := .proto3
  options := []

/-- The pool of the file. -/
def orderPool : Pool := .ofFiles [orderFile]

theorem loadedFrom_orderPool : orderPool.LoadedFrom [orderFile] :=
  Pool.loadedFrom_ofFiles (by unfold EnumType.InRange; decide) (by decide +kernel)

/-- The method with the ordered input. -/
def ordered : Method :=
  ⟨"ordered", "order.Calls.ordered", "order.Ordered", "order.Ordered", false, false⟩

/-- The method with the input whose numbers do not ascend. -/
def swapped : Method :=
  ⟨"swapped", "order.Calls.swapped", "order.Swapped", "order.Swapped", false, false⟩

/-- The service of the file. -/
def orderService : Service := ⟨"Calls", "order.Calls", [ordered, swapped]⟩

/-- Where the numbers ascend the fields are listed and filled as they are declared. -/
theorem parameters_ordered : ∃ d ∈ Pool.declared [orderFile], d.1 = "order.Ordered" ∧
    Lists ⟨orderPool, ordered, .echo⟩ d.2.fields ∧ Fills ⟨orderPool, ordered, .echo⟩ d.2.fields := by
  have hservice : orderService ∈ orderPool.services := by decide +kernel
  obtain ⟨d, hd, hname, -, hlists, hfills, -⟩ :=
    parameters_by_number loadedFrom_orderPool hservice (m := ordered) (by decide) .echo
  have hascending : ∀ e ∈ Pool.declared [orderFile], e.1 = "order.Ordered" →
      Source.Ascending e.2.fields := by
    unfold Source.Ascending
    decide +kernel
  have h := hascending d hd hname
  exact ⟨d, hd, hname, hlists.2 h, hfills.2 h⟩

/-- Where they do not, the signature lists the fields in another order than the declaration. -/
theorem not_lists_swapped : orderPool.LoadedFrom [orderFile] ∧ orderService ∈ orderPool.services ∧
    ∃ d ∈ Pool.declared [orderFile], d.1 = swapped.input ∧
      ¬Lists ⟨orderPool, swapped, .echo⟩ d.2.fields := by
  refine ⟨loadedFrom_orderPool, by decide +kernel, ?_⟩
  unfold Lists
  decide +kernel

end Invoker

end ServiceCall
