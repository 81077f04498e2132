/-
# Numerals through a module

The function `to_base36` takes a size, so an argument below zero is refused while the frame is
filled; no native code has run by then (`Site.refused_numeral`).  Every other argument gets the
numeral that `Numeral.base36` writes, as a new text that the call copies out and gives back
(`Site.callStatic_numeral`).

**Together** the answers are canonical, so they tell the arguments apart
(`Site.numerals_canonical`).  The module of the core parcel offers the function; so does every
other one that resolves its name to it.
-/

import Interop.Proofs.Call.Dispatch
import Interop.Proofs.Container.Requests
import Interop.Proofs.Conversion.RoundTrip
import Interop.Proofs.Text.Numerals

namespace Interop

open Conversion

namespace Parcel

/-- The function that writes numerals. -/
def numeralFunction : Method :=
  function "to_base36" (.value text) [("num", size)] .toBase36

/-- The function is one of its class. -/
theorem numeralFunction_mem : numeralFunction ∈ stringHelper.functions := by
  decide

/-- The native function makes a new text. -/
theorem runFunction_toBase36 {n : Int64} (hn : 0 ≤ n.toInt) (env : NativeEnv) (h : Heap) :
    runFunction [.int n] .toBase36 env h =
      .ok (.incremented (h.alloc string (.str (Numeral.base36 n.toInt.toNat))).1)
        (h.alloc string (.str (Numeral.base36 n.toInt.toNat))).2 := by
  have hnot : ¬ n.toInt < 0 := by omega
  simp only [runFunction, Text.toBase36, argAt, List.getElem?_cons_zero, Arg.toInt,
    NativeM.bind_apply, NativeM.pure_apply, if_neg hnot, NativeM.newString, NativeM.alloc_apply]

/-- Sizes are the numbers from zero on. -/
theorem contains_usize {n : Int64} : IntWidth.usize.contains n = decide (0 ≤ n.toInt) := by
  have hlt := n.toInt_lt
  have hhigh : IntWidth.usize.high = 2 ^ 63 - 1 := rfl
  have hlow : IntWidth.usize.low = 0 := rfl
  rw [Bool.eq_iff_iff, IntWidth.contains_iff, decide_eq_true_iff, hhigh, hlow]
  exact ⟨And.left, fun h => ⟨h, by omega⟩⟩

end Parcel

namespace CoreBinding

/-- The module of the core parcel offers the function under its own name. -/
theorem resolve?_numeralFunction : clownfish.resolve? Parcel.stringHelper "to_base36" =
    some (.function Parcel.numeralFunction) := by
  have hname : Parcel.numeralFunction.hostName = "to_base36" := by decide +kernel
  rw [← hname, resolve?_of_function Parcel.numeralFunction_mem]

end CoreBinding

namespace Call

/-- **A function that returns a new text** is answered with a copy of it, whatever the world is
like. -/
theorem runTrapped_newText (m : Machine) (exceptions : ExceptionMap) (cls : Class) (t : String)
    {code : Code} {frame : Frame} {native : NativeM Ret} {w : World}
    (hcode : codeFor m.image code cls frame = some native)
    (hrun : native (m.env w.program.registryView) w.heap =
      .ok (.incremented (w.heap.alloc Parcel.string (.str t)).1)
        (w.heap.alloc Parcel.string (.str t)).2) :
    ∃ w', runTrapped m exceptions cls (toHost m) code frame w = .ok (.str t) w' := by
  let w₁ : World := w.settle (w.heap.alloc Parcel.string (.str t)).2
  have hholds : (w₁.heap.view []).Holds (w.heap.alloc Parcel.string (.str t)).1 (.str t) :=
    ⟨Heap.view_eq_some.2 ⟨List.not_mem_nil, _, Heap.get?_alloc_self _ _, rfl⟩,
      fun q hq => absurd hq List.not_mem_nil⟩
  obtain ⟨w₂, hcopied⟩ : ∃ w₂, toHost m (.incremented (w.heap.alloc Parcel.string (.str t)).1) w₁ =
      .ok (.str t) w₂ := ⟨_, toHost_incremented m ⟨_, rfl, hholds⟩⟩
  refine ⟨w₂.releaseAll m frame.owned, ?_⟩
  rw [runTrapped_of_returned exceptions _ hcode hrun, hcopied]

end Call

namespace Site

variable {s : Site} {className : String} {n : Int64} {args : CallArgs}

/-- Filling the frame of the function takes nothing but the argument. -/
theorem fillFrame_numeral (s : Site) (hargs : args.bind ["num"] = .ok [some (.int n)])
    (staging : Staging) : s.fillFrame Parcel.numeralFunction none args staging =
      if 0 ≤ n.toInt then .ok () { staging with frame := staging.frame.push (.int n) }
      else .error (.overflow "num" n "usize") staging := by
  have hnames : Parcel.numeralFunction.paramNames = ["num"] := rfl
  have hparams : Parcel.numeralFunction.params = [⟨"num", Parcel.size⟩] := rfl
  have hnull : (Value.int n : HostValue).isNull = false := rfl
  simp only [fillFrame, pushReceiver, pushArgs, hnames, hparams, hargs, List.zip_cons_cons,
    List.zip_nil_left, pushSlots, pushArg, hnull, Bool.false_eq_true, if_false, Steps.bind_apply,
    Steps.pure_apply, Parcel.size, Parcel.contains_usize, decide_eq_true_eq]
  split_ifs with hn
  · rfl
  · rfl

/-- The frame of the function is filled, or the call is refused and the world stays. -/
theorem stage_numeral (s : Site) (hargs : args.bind ["num"] = .ok [some (.int n)]) (w : World) :
    s.stage Parcel.numeralFunction none args w =
      if 0 ≤ n.toInt then .ok ⟨none, [.int n], []⟩ w
      else .error (.ofError (.overflow "num" n "usize")) w := by
  simp only [stage, fillFrame_numeral s hargs]
  split_ifs with hn
  · rfl
  · exact congrArg _ (World.releaseAll_nil s.machine w)

section Offered

variable (hfetch : s.registry.fetch className = .ok Parcel.stringHelper)
  (hoffer : s.module.resolve? Parcel.stringHelper "to_base36" =
    some (.function Parcel.numeralFunction))
  (hargs : args.bind ["num"] = .ok [some (.int n)])

include hfetch hoffer in
/-- The call by its name runs the function and no other. -/
theorem callStaticBy_numeral (run : Runner) : s.callStaticBy run className "to_base36" args =
    HostM.inFrame "StringHelper.to_base36"
      (s.invokeBy run Parcel.numeralFunction Parcel.stringHelper none args (toHost s.machine)) := by
  have hlabel : Parcel.stringHelper.shortName ++ "." ++ "to_base36" = "StringHelper.to_base36" := by
    decide +kernel
  unfold callStaticBy
  simp only [hfetch, HostM.ofExcept, pure_bind, hoffer, hlabel]

include hfetch hoffer hargs

/-- **A number from zero on** is answered with its numeral. -/
theorem callStatic_numeral (hn : 0 ≤ n.toInt) (w : World) : ∃ w',
    s.callStatic className "to_base36" args w = .ok (.str (Numeral.base36 n.toInt.toNat)) w' := by
  have hcode : Call.codeFor s.machine.image Parcel.numeralFunction.code Parcel.stringHelper
      ⟨none, [.int n], []⟩ = some (Parcel.runFunction [.int n] .toBase36) := rfl
  obtain ⟨w', hrun⟩ := Call.runTrapped_newText s.machine s.module.exceptions Parcel.stringHelper
    (Numeral.base36 n.toInt.toNat) hcode (Parcel.runFunction_toBase36 hn _ w.heap)
  refine ⟨w', ?_⟩
  show s.callStaticBy s.trap className "to_base36" args w = _
  rw [callStaticBy_numeral hfetch hoffer, HostM.inFrame_apply, invokeBy, if_pos (by decide),
    Steps.bind_apply, stage_numeral s hargs, if_pos hn]
  simp only [trap, hrun]

/-- **A number below zero** is refused before anything runs. -/
theorem refused_numeral (hn : n.toInt < 0) (run : Runner) (w : World) :
    s.callStaticBy run className "to_base36" args w =
      .error ((HostException.ofError (.overflow "num" n "usize")).withFrame
        "StringHelper.to_base36") w := by
  rw [callStaticBy_numeral hfetch hoffer, HostM.inFrame_apply, invokeBy, if_pos (by decide),
    Steps.bind_apply, stage_numeral s hargs, if_neg (by omega)]

end Offered

/-- **The function answers canonical numerals.**  Whatever the world is like, each number from
zero on gets its canonical numeral; two calls with the same answer had the same argument; and a
number below zero is an `OverflowError` that leaves the world as it was, whatever running native
code would have done. -/
theorem numerals_canonical (hfetch : s.registry.fetch className = .ok Parcel.stringHelper)
    (hoffer : s.module.resolve? Parcel.stringHelper "to_base36" =
      some (.function Parcel.numeralFunction)) :
    (∀ n : Int64, 0 ≤ n.toInt → ∀ args, args.bind ["num"] = .ok [some (.int n)] → ∀ w, ∃ t w',
      s.callStatic className "to_base36" args w = .ok (.str t) w' ∧
        Numeral.Canonical n.toInt.toNat t) ∧
    (∀ (n k : Int64) (args args' : CallArgs) w w' v v' t,
      args.bind ["num"] = .ok [some (.int n)] → args'.bind ["num"] = .ok [some (.int k)] →
      s.callStatic className "to_base36" args w = .ok (.str t) w' →
      s.callStatic className "to_base36" args' v = .ok (.str t) v' → n = k) ∧
    (∀ n : Int64, n.toInt < 0 → ∀ args, args.bind ["num"] = .ok [some (.int n)] →
      ∃ e : HostException, e.cls = .overflowError ∧
        ∀ w, s.callStatic className "to_base36" args w = .error e w ∧
          ∀ run, s.callStaticBy run className "to_base36" args w = .error e w) := by
  refine ⟨fun n hn args hargs w => ?_, fun n k args args' w w' v v' t hn hk hw hv => ?_,
    fun n hn args hargs => ?_⟩
  · obtain ⟨w', hok⟩ := callStatic_numeral hfetch hoffer hargs hn w
    exact ⟨_, w', hok, Numeral.canonical_base36 _⟩
  · have canonical : ∀ {n : Int64} {args w w'}, args.bind ["num"] = .ok [some (.int n)] →
        s.callStatic className "to_base36" args w = .ok (.str t) w' →
        0 ≤ n.toInt ∧ Numeral.Canonical n.toInt.toNat t := by
      intro n args w w' hargs hok
      rcases lt_or_ge n.toInt 0 with hneg | hpos
      · have herror := refused_numeral hfetch hoffer hargs hneg s.trap w
        exact absurd (hok.symm.trans herror) (by simp)
      · obtain ⟨w'', hok'⟩ := callStatic_numeral hfetch hoffer hargs hpos w
        obtain rfl := Value.str.inj (EStateM.Result.ok.inj (hok.symm.trans hok')).1
        exact ⟨hpos, Numeral.canonical_base36 _⟩
    obtain ⟨hn0, hcn⟩ := canonical hn hw
    obtain ⟨hk0, hck⟩ := canonical hk hv
    have := hcn.eq hck
    exact Int64.toInt_inj.1 (by omega)
  · refine ⟨_, rfl, fun w => ⟨?_, fun run => refused_numeral hfetch hoffer hargs hn run w⟩⟩
    exact refused_numeral hfetch hoffer hargs hn s.trap w

end Site

namespace Sample

/-- In the module of the core parcel the function writes `10` for 36 and refuses -1. -/
theorem clownfishSite_numerals :
    clownfishSite.registry.fetch "Clownfish::Util::StringHelper" = .ok Parcel.stringHelper ∧
    clownfishSite.module.resolve? Parcel.stringHelper "to_base36" =
      some (.function Parcel.numeralFunction) ∧
    (∃ t w', clownfishSite.callStatic "Clownfish::Util::StringHelper" "to_base36" ⟨[.int 36], []⟩
      (.ofProgram .ready) = .ok (.str t) w' ∧ Numeral.Canonical 36 t) ∧
    ∃ e : HostException, e.cls = .overflowError ∧
      clownfishSite.callStatic "Clownfish::Util::StringHelper" "to_base36" ⟨[.int (-1)], []⟩
        (.ofProgram .ready) = .error e (.ofProgram .ready) := by
  have hfetch : clownfishSite.registry.fetch "Clownfish::Util::StringHelper" =
      .ok Parcel.stringHelper := Parcel.registry_fetch Parcel.stringHelper (by decide)
  have hoffer : clownfishSite.module.resolve? Parcel.stringHelper "to_base36" =
      some (.function Parcel.numeralFunction) := by
    rw [clownfishSite_module, CoreBinding.resolve?_numeralFunction]
  obtain ⟨hcanonical, -, hrefused⟩ := Site.numerals_canonical hfetch hoffer
  obtain ⟨e, he, herror⟩ := hrefused (-1) (by decide) ⟨[.int (-1)], []⟩ rfl
  exact ⟨hfetch, hoffer, hcanonical 36 (by decide) ⟨[.int 36], []⟩ rfl (.ofProgram .ready),
    e, he, (herror (.ofProgram .ready)).1⟩

end Sample

end Interop
