/-
# The place of each argument

A call gives its arguments to a list of parameters, in which a name may stand more than once.
The place of a positional argument is its position, that of a keyword the first parameter of its
name (`CallArgs.places`).  Either the arguments fit the parameters, which says that these places
exist and that no two are the same (`CallArgs.Fits`), or there is a first keyword that does not
fit those before it (`CallArgs.fits_or_fault`).

**Arguments are bound exactly if they fit**, each one in its place and nowhere else, and otherwise
the error is that of the first fault (`CallArgs.bind_partition`).  The loop over the keywords is
followed by an invariant: after some of the keywords the slots are those of a call that brings only
these (`CallArgs.bindKeywords_placed`).  What is said of the outcome does not speak of the order of
the keywords, so this order does not matter.
-/

import Interop.Proofs.Conversion.Conformity

namespace Interop

namespace CallArgs

/-! ### What fits and what does not -/

/-- The places of all arguments among the slots, in the order of the call. -/
def places (args : CallArgs) (params : List String) : List Nat :=
  List.range args.positional.length ++ args.keyword.map fun e => params.idxOf e.1

/-- Every argument of the call has a parameter of its own. -/
structure Fits (args : CallArgs) (params : List String) : Prop where
  /-- There are no more positional arguments than parameters. -/
  few : args.positional.length ≤ params.length
  /-- Every keyword is the name of a parameter. -/
  known : ∀ e ∈ args.keyword, e.1 ∈ params
  /-- No keyword comes twice. -/
  once : (args.keyword.map Prod.fst).Nodup
  /-- The first parameter of its name is not one that a positional argument is for. -/
  beyond : ∀ e ∈ args.keyword, args.positional.length ≤ params.idxOf e.1

/-- The slots with each argument in its place and nothing elsewhere. -/
structure Placed (args : CallArgs) (params : List String) (slots : List (Option HostValue)) :
    Prop where
  length : slots.length = params.length
  positional : ∀ i (hi : i < args.positional.length), slots[i]? = some (some args.positional[i])
  keyword : ∀ e ∈ args.keyword, slots[params.idxOf e.1]? = some (some e.2)
  unset : ∀ i, args.positional.length ≤ i → i < params.length →
    (∀ e ∈ args.keyword, params.idxOf e.1 ≠ i) → slots[i]? = some none

/-- The first fault of a call, with the error for it: there are too many positional arguments, or
a keyword is the first that does not fit together with those before it. -/
inductive Fault (args : CallArgs) (params : List String) : BridgeError → Prop
  | many : params.length < args.positional.length →
      Fault args params (.argumentCount params.length args.length)
  | unknown {before after : List (String × HostValue)} {e : String × HostValue} :
      args.keyword = before ++ e :: after → Fits ⟨args.positional, before⟩ params →
      e.1 ∉ params → Fault args params (.unknownArgument e.1)
  | duplicate {before after : List (String × HostValue)} {e : String × HostValue} :
      args.keyword = before ++ e :: after → Fits ⟨args.positional, before⟩ params →
      e.1 ∈ params → params.idxOf e.1 < args.positional.length ∨ e.1 ∈ before.map Prod.fst →
      Fault args params (.duplicateArgument e.1)

section

variable {args : CallArgs} {params : List String} {slots bound : List (Option HostValue)}
  {positional : List HostValue} {before keyword : List (String × HostValue)}
  {e : String × HostValue} {name : String} {err : BridgeError} {i : Nat}

/-- Two parameters of the call stand first at the same place only if they have one name. -/
theorem Fits.places_nodup (hfits : args.Fits params) : (args.places params).Nodup := by
  refine List.nodup_append'.2 ⟨List.nodup_range, ?_, fun i hi hkey => ?_⟩
  · have hnames : (args.keyword.map fun e => params.idxOf e.1) =
        (args.keyword.map Prod.fst).map params.idxOf := by rw [List.map_map]; rfl
    rw [hnames]
    refine (List.nodup_map_iff_inj_on hfits.once).2 fun x hx y _ hxy => ?_
    obtain ⟨e, he, rfl⟩ := List.mem_map.1 hx
    exact (List.idxOf_inj (hfits.known e he)).1 hxy
  · obtain ⟨e, he, rfl⟩ := List.mem_map.1 hkey
    exact absurd (List.mem_range.1 hi) (Nat.not_lt.2 (hfits.beyond e he))

/-- Whether arguments fit does not depend on the order of the keywords. -/
theorem Fits.perm (hfits : args.Fits params) (hperm : keyword.Perm args.keyword) :
    Fits ⟨args.positional, keyword⟩ params where
  few := hfits.few
  known e he := hfits.known e (hperm.mem_iff.1 he)
  once := (hperm.map Prod.fst).nodup_iff.2 hfits.once
  beyond e he := hfits.beyond e (hperm.mem_iff.1 he)

/-- Neither does what the slots hold. -/
theorem Placed.perm (hplaced : args.Placed params slots) (hperm : keyword.Perm args.keyword) :
    Placed ⟨args.positional, keyword⟩ params slots where
  length := hplaced.length
  positional := hplaced.positional
  keyword e he := hplaced.keyword e (hperm.mem_iff.1 he)
  unset i hi hlt hother := hplaced.unset i hi hlt fun e he => hother e (hperm.mem_iff.2 he)

/-- One keyword more fits if it names a parameter that nothing before it is for. -/
theorem fits_concat_iff : Fits ⟨positional, before ++ [e]⟩ params ↔
    Fits ⟨positional, before⟩ params ∧ e.1 ∈ params ∧
      ¬ (params.idxOf e.1 < positional.length ∨ e.1 ∈ before.map Prod.fst) := by
  have hlast : e ∈ before ++ [e] := List.mem_append_right _ (List.mem_singleton_self e)
  constructor
  · rintro ⟨few, known, once, beyond⟩
    rw [List.map_append, List.nodup_append'] at once
    refine ⟨⟨few, fun d hd => known d (List.mem_append_left _ hd), once.1,
      fun d hd => beyond d (List.mem_append_left _ hd)⟩, known e hlast, ?_⟩
    rintro (hlt | hmem)
    · exact absurd hlt (Nat.not_lt.2 (beyond e hlast))
    · exact once.2.2 hmem (List.mem_singleton_self e.1)
  · rintro ⟨⟨few, known, once, beyond⟩, hname, hnew⟩
    rw [not_or, Nat.not_lt] at hnew
    refine ⟨few, ?_, ?_, ?_⟩
    · exact List.forall_mem_append.2 ⟨known, List.forall_mem_singleton.2 hname⟩
    · rw [List.map_append]
      exact List.nodup_append'.2 ⟨once, List.nodup_singleton _, by simpa using hnew.2⟩
    · exact List.forall_mem_append.2 ⟨beyond, List.forall_mem_singleton.2 hnew.1⟩

/-- **Arguments fit, or there is a first fault.** -/
theorem fits_or_fault (args : CallArgs) (params : List String) :
    args.Fits params ∨ ∃ err, args.Fault params err := by
  obtain ⟨positional, keyword⟩ := args
  rcases Nat.lt_or_ge params.length positional.length with hmany | hfew
  · exact .inr ⟨_, .many hmany⟩
  -- The first keywords that fit together are all of them or end before a fault.
  suffices hrest : ∀ rest before, before ++ rest = keyword →
      Fits ⟨positional, before⟩ params →
      Fits ⟨positional, keyword⟩ params ∨ ∃ err, Fault ⟨positional, keyword⟩ params err from
    hrest keyword [] rfl ⟨hfew, List.forall_mem_nil _, List.nodup_nil, List.forall_mem_nil _⟩
  intro rest
  induction rest with
  | nil =>
    rintro before rfl hfits
    exact .inl (by rwa [List.append_nil])
  | cons e rest ih =>
    intro before hkeyword hfits
    by_cases hname : e.1 ∈ params
    · by_cases htaken : params.idxOf e.1 < positional.length ∨ e.1 ∈ before.map Prod.fst
      · exact .inr ⟨_, .duplicate hkeyword.symm hfits hname htaken⟩
      · exact ih (before ++ [e]) (by rwa [List.append_assoc])
          (fits_concat_iff.2 ⟨hfits, hname, htaken⟩)
    · exact .inr ⟨_, .unknown hkeyword.symm hfits hname⟩

/-! ### The slots -/

/-- There is only one way to put each argument in its place. -/
theorem Placed.unique (hslots : args.Placed params slots) (hbound : args.Placed params bound) :
    slots = bound := by
  refine List.ext_getElem? fun i => ?_
  rcases Nat.lt_or_ge i args.positional.length with hpos | hpos
  · rw [hslots.positional i hpos, hbound.positional i hpos]
  rcases Nat.lt_or_ge i params.length with hlt | hge
  · by_cases hkey : ∃ e ∈ args.keyword, params.idxOf e.1 = i
    · obtain ⟨e, he, rfl⟩ := hkey
      rw [hslots.keyword e he, hbound.keyword e he]
    · have hother : ∀ e ∈ args.keyword, params.idxOf e.1 ≠ i := fun e he h => hkey ⟨e, he, h⟩
      rw [hslots.unset i hpos hlt hother, hbound.unset i hpos hlt hother]
  · rw [List.getElem?_eq_none (hslots.length.trans_le hge),
      List.getElem?_eq_none (hbound.length.trans_le hge)]

/-- The positional arguments alone. -/
theorem placed_fillSlots (hfew : positional.length ≤ params.length) :
    Placed ⟨positional, []⟩ params (fillSlots positional params.length) where
  length := by
    rw [fillSlots, List.length_append, List.length_map, List.length_replicate,
      Nat.add_sub_cancel' hfew]
  positional i hi := by
    rw [fillSlots, List.getElem?_append_left (by rwa [List.length_map]), List.getElem?_map,
      List.getElem?_eq_getElem hi, Option.map_some]
  keyword := List.forall_mem_nil _
  unset i hpos hlt _ := by
    rw [fillSlots, List.getElem?_append_right (by rwa [List.length_map]), List.length_map,
      List.getElem?_replicate, if_pos (Nat.sub_lt_sub_right hpos hlt)]

/-- The slot of a parameter is filled by a positional argument or by a keyword of its name. -/
theorem Placed.filled_iff (hplaced : args.Placed params slots) (hname : name ∈ params) :
    (slots[params.idxOf name]?).join.isSome ↔
      params.idxOf name < args.positional.length ∨ name ∈ args.keyword.map Prod.fst := by
  constructor
  · intro hfilled
    by_contra! hnone
    have hother : ∀ e ∈ args.keyword, params.idxOf e.1 ≠ params.idxOf name := fun e he hidx =>
      hnone.2 ((List.idxOf_inj hname).1 hidx.symm ▸ List.mem_map_of_mem he)
    rw [hplaced.unset _ hnone.1 (List.idxOf_lt_length_of_mem hname) hother] at hfilled
    exact absurd hfilled (by simp)
  · rintro (hpos | hkey)
    · rw [hplaced.positional _ hpos]
      rfl
    · obtain ⟨e, he, rfl⟩ := List.mem_map.1 hkey
      rw [hplaced.keyword e he]
      rfl

/-- A keyword more that fits goes into its place. -/
theorem Placed.concat (hplaced : Placed ⟨positional, before⟩ params slots)
    (hfits : Fits ⟨positional, before ++ [e]⟩ params) :
    Placed ⟨positional, before ++ [e]⟩ params (slots.set (params.idxOf e.1) (some e.2)) := by
  obtain ⟨hbefore, hname, hnew⟩ := fits_concat_iff.1 hfits
  rw [not_or, Nat.not_lt] at hnew
  have hlt : params.idxOf e.1 < slots.length := by
    rw [hplaced.length]
    exact List.idxOf_lt_length_of_mem hname
  refine ⟨by rw [List.length_set, hplaced.length], fun i hi => ?_, ?_, fun i hpos hi hother => ?_⟩
  · rw [List.getElem?_set_ne (Nat.lt_of_lt_of_le hi hnew.1).ne']
    exact hplaced.positional i hi
  · refine List.forall_mem_append.2 ⟨fun d hd => ?_, List.forall_mem_singleton.2 ?_⟩
    · have hne : params.idxOf e.1 ≠ params.idxOf d.1 := fun hidx =>
        hnew.2 ((List.idxOf_inj hname).1 hidx ▸ List.mem_map_of_mem hd)
      rw [List.getElem?_set_ne hne]
      exact hplaced.keyword d hd
    · exact List.getElem?_set_self hlt
  · obtain ⟨hrest, hlast⟩ := List.forall_mem_append.1 hother
    rw [List.getElem?_set_ne (hlast e (List.mem_singleton_self e))]
    exact hplaced.unset i hpos hi hrest

/-! ### The loop over the keywords -/

/-- The first parameter of a name is where the search for it stops. -/
theorem findIdx?_name (hname : name ∈ params) :
    params.findIdx? (· == name) = some (params.idxOf name) :=
  List.findIdx?_eq_some_iff_findIdx_eq.2 ⟨List.idxOf_lt_length_of_mem hname, rfl⟩

/-- A keyword that no parameter has is refused. -/
theorem bindKeywords_unknown (hname : e.1 ∉ params) :
    bindKeywords params slots (e :: keyword) = .error (.unknownArgument e.1) := by
  have hnone : params.findIdx? (· == e.1) = none :=
    List.findIdx?_eq_none_iff.2 fun param hparam =>
      beq_eq_false_iff_ne.2 fun heq => hname (heq ▸ hparam)
  rw [bindKeywords, hnone]

/-- A keyword fills the slot of its parameter, unless the slot is filled already. -/
theorem bindKeywords_known (hname : e.1 ∈ params) :
    bindKeywords params slots (e :: keyword) =
      if (slots[params.idxOf e.1]?).join.isSome then .error (.duplicateArgument e.1)
      else bindKeywords params (slots.set (params.idxOf e.1) (some e.2)) keyword := by
  rw [bindKeywords, findIdx?_name hname]

/-- **Keywords that fit are put in their places**, one after the other. -/
theorem bindKeywords_placed (rest : List (String × HostValue))
    (hplaced : Placed ⟨positional, before⟩ params slots)
    (hfits : Fits ⟨positional, before ++ keyword⟩ params) :
    ∃ bound, Placed ⟨positional, before ++ keyword⟩ params bound ∧
      bindKeywords params slots (keyword ++ rest) = bindKeywords params bound rest := by
  induction keyword generalizing before slots with
  | nil => exact ⟨slots, by rwa [List.append_nil], rfl⟩
  | cons e keyword ih =>
    rw [← List.singleton_append, ← List.append_assoc] at hfits ⊢
    have hstep : Fits ⟨positional, before ++ [e]⟩ params :=
      ⟨hfits.few, fun d hd => hfits.known d (List.mem_append_left _ hd),
        (List.nodup_append'.1 (List.map_append ▸ hfits.once)).1,
        fun d hd => hfits.beyond d (List.mem_append_left _ hd)⟩
    obtain ⟨-, hname, hnew⟩ := fits_concat_iff.1 hstep
    obtain ⟨bound, hbound, hrest⟩ := ih (hplaced.concat hstep) hfits
    refine ⟨bound, hbound, ?_⟩
    rw [List.append_assoc, List.singleton_append, bindKeywords_known hname,
      if_neg (mt (hplaced.filled_iff hname).1 hnew), hrest]

/-- Arguments that fit are bound, each one in its place. -/
theorem Fits.bind_placed (hfits : args.Fits params) :
    ∃ slots, args.bind params = .ok slots ∧ args.Placed params slots := by
  obtain ⟨bound, hbound, hrun⟩ :=
    bindKeywords_placed [] (placed_fillSlots hfits.few) hfits
  refine ⟨bound, ?_, hbound⟩
  rw [bind, if_neg (Nat.not_lt.2 hfits.few), ← List.append_nil args.keyword, hrun, bindKeywords]

/-- **A call is refused with the error of its first fault.** -/
theorem Fault.bind_error (hfault : args.Fault params err) : args.bind params = .error err := by
  cases hfault with
  | many hmany => rw [bind, if_pos hmany]
  | unknown hkeyword hbefore hname =>
    obtain ⟨bound, -, hrun⟩ :=
      bindKeywords_placed (_ :: _) (placed_fillSlots hbefore.few) hbefore
    rw [bind, if_neg (Nat.not_lt.2 hbefore.few), hkeyword, hrun, bindKeywords_unknown hname]
  | duplicate hkeyword hbefore hname htaken =>
    obtain ⟨bound, hbound, hrun⟩ :=
      bindKeywords_placed (_ :: _) (placed_fillSlots hbefore.few) hbefore
    rw [bind, if_neg (Nat.not_lt.2 hbefore.few), hkeyword, hrun, bindKeywords_known hname,
      if_pos ((hbound.filled_iff hname).2 htaken)]

/-- Arguments are bound just when they fit, and then to the slots where they are placed. -/
theorem bind_eq_ok_iff :
    args.bind params = .ok slots ↔ args.Fits params ∧ args.Placed params slots := by
  constructor
  · intro hok
    rcases args.fits_or_fault params with hfits | ⟨err, hfault⟩
    · obtain ⟨bound, hbound, hplaced⟩ := hfits.bind_placed
      obtain rfl : bound = slots := Except.ok.inj (hbound.symm.trans hok)
      exact ⟨hfits, hplaced⟩
    · exact absurd (hfault.bind_error.symm.trans hok) (by simp)
  · rintro ⟨hfits, hplaced⟩
    obtain ⟨bound, hbound, hplaced'⟩ := hfits.bind_placed
    rw [hbound, hplaced.unique hplaced']

/-- Arguments are refused just with a fault that they have. -/
theorem bind_eq_error_iff : args.bind params = .error err ↔ args.Fault params err := by
  refine ⟨fun herr => ?_, Fault.bind_error⟩
  rcases args.fits_or_fault params with hfits | ⟨err', hfault⟩
  · obtain ⟨slots, hok, -⟩ := hfits.bind_placed
    exact absurd (hok.symm.trans herr) (by simp)
  · rwa [← Except.error.inj (hfault.bind_error.symm.trans herr)]

end

/-! ### The outcome -/

/-- What is known of the slots of a call that is bound. -/
structure Bound (args : CallArgs) (params : List String) (slots : List (Option HostValue)) :
    Prop where
  /-- Each argument is in its place, and nothing is elsewhere. -/
  placed : args.Placed params slots
  /-- No two arguments have one place. -/
  apart : (args.places params).Nodup
  /-- The values in the slots are those of the call, each as often as the call brings it. -/
  values : (slots.filterMap id).Perm args.values
  /-- As many slots are filled as there are arguments. -/
  filled : slots.countP Option.isSome = args.length
  /-- The order of the keywords does not matter. -/
  perm : ∀ keyword, keyword.Perm args.keyword →
    bind ⟨args.positional, keyword⟩ params = .ok slots

/-- There are as many values as arguments. -/
theorem length_values (args : CallArgs) : args.values.length = args.length := by
  rw [values, List.length_append, List.length_map, length]

/-- **The arguments of a call are divided among its parameters without rest.**  They are bound if
and only if each has a parameter of its own; then each is in its place and nothing is elsewhere,
in whatever order the keywords come; and if not, the error is that of the first fault. -/
theorem bind_partition (args : CallArgs) (params : List String) :
    ((∃ slots, args.bind params = .ok slots) ↔ args.Fits params) ∧
      (∀ slots, args.bind params = .ok slots → args.Bound params slots) ∧
      ∀ err, args.bind params = .error err ↔ args.Fault params err := by
  refine ⟨⟨?_, ?_⟩, fun slots hok => ?_, fun err => bind_eq_error_iff⟩
  · rintro ⟨slots, hok⟩
    exact (bind_eq_ok_iff.1 hok).1
  · intro hfits
    obtain ⟨slots, hok, -⟩ := hfits.bind_placed
    exact ⟨slots, hok⟩
  · obtain ⟨hfits, hplaced⟩ := bind_eq_ok_iff.1 hok
    obtain ⟨-, hvalues⟩ := bind_perm hok
    refine ⟨hplaced, hfits.places_nodup, hvalues, ?_, fun keyword hperm => ?_⟩
    · rw [← length_values, ← hvalues.length_eq, List.length_filterMap_eq_countP]
      rfl
    · exact bind_eq_ok_iff.2 ⟨hfits.perm hperm, hplaced.perm hperm⟩

end CallArgs

/-- A second parameter of one name cannot be given by keyword. -/
example : (CallArgs.bind ⟨[.int 1], [("key", .int 2)]⟩ ["key", "key"]) =
    .error (.duplicateArgument "key") := by
  rfl

end Interop
