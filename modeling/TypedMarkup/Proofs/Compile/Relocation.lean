import TypedMarkup.Proofs.Compile.Reports
import TypedMarkup.Proofs.Document.Relocation

/-! # Compilations at other places

Two templates with the same markup, compiled among declarations that mean the same, give the same listing, and the
same resolutions and diagnostics but for their spans.
-/
namespace TypedMarkup
set_option autoImplicit false

/-- The same listing, and in the same order the same resolutions and diagnostics but for their spans. -/
structure Compilation.SameButSpans (out out' : Compilation) : Prop where
  generated : out.generated = out'.generated
  resolutions : out.resolutions.map (Resolution.moved nowhere) = out'.resolutions.map (Resolution.moved nowhere)
  diagnostics : out.diagnostics.map (Diagnostic.moved nowhere) = out'.diagnostics.map (Diagnostic.moved nowhere)

theorem Declarations.Alike.refl (ds : Declarations) : ds.Alike ds := ⟨fun _ => rfl, fun _ => rfl⟩

theorem Resolution.map_moved_filterMap_diagnostic? (f : Nat → Nat) (sites : List Resolution) :
    (sites.filterMap diagnostic?).map (Diagnostic.moved f) = (sites.map (moved f)).filterMap diagnostic? := by
  rw [List.map_filterMap, List.filterMap_map]
  congr 1
  funext r
  exact (diagnostic?_moved f r).symm

theorem Node.callsAtIn_of_same_markup {nodes nodes' : List Node} {ds ds' : Declarations}
    (hMarkup : nodes.map (moved nowhere) = nodes'.map (moved nowhere)) (hAlike : ds.Alike ds')
    (resolved : Nat → Bool) (position : Nat) :
    callsAtIn ds.registry ds.scope resolved position nodes =
      callsAtIn ds'.registry ds'.scope resolved position nodes' := by
  rw [← movedIn_eq_map, ← movedIn_eq_map] at hMarkup
  calc
    _ = callsAtIn ds.registry ds.scope resolved position (movedIn nowhere nodes) :=
      (callsAtIn_movedIn (.refl ds) nowhere resolved nodes position).symm
    _ = callsAtIn ds.registry ds.scope resolved position (movedIn nowhere nodes') := by rw [hMarkup]
    _ = _ := callsAtIn_movedIn hAlike nowhere resolved nodes' position

namespace Document

variable {source source' : String} {d d' : Document} {ds ds' : Declarations}

theorem resolutions_of_same_markup (hMarkup : d.markup.map (Node.moved nowhere) = d'.markup.map (Node.moved nowhere))
    (hAlike : ds.Alike ds') :
    (d.resolutions ds.registry ds.scope).map (Resolution.moved nowhere) =
      (d'.resolutions ds'.registry ds'.scope).map (Resolution.moved nowhere) := by
  rw [← Node.movedIn_eq_map, ← Node.movedIn_eq_map] at hMarkup
  calc
    _ = Node.resolutionsIn ds.registry ds.scope (Node.movedIn nowhere d.markup) :=
      (Node.resolutionsIn_movedIn (.refl ds) nowhere d.markup).symm
    _ = Node.resolutionsIn ds.registry ds.scope (Node.movedIn nowhere d'.markup) := by rw [hMarkup]
    _ = _ := Node.resolutionsIn_movedIn hAlike nowhere d'.markup

theorem calls_of_same_markup (h : parse source = .ok d) (h' : parse source' = .ok d')
    (hMarkup : d.markup.map (Node.moved nowhere) = d'.markup.map (Node.moved nowhere)) (hAlike : ds.Alike ds') :
    d.calls ds.registry (d.resolutions ds.registry ds.scope) =
      d'.calls ds'.registry (d'.resolutions ds'.registry ds'.scope) := by
  rw [calls_eq_callsAt h, calls_eq_callsAt h', Node.callsAtIn_of_same_markup hMarkup hAlike]

theorem compile_sameButSpans_of_calls (h : parse source = .ok d) (h' : parse source' = .ok d')
    (hCalls : d.calls ds.registry (d.resolutions ds.registry ds.scope) =
      d'.calls ds'.registry (d'.resolutions ds'.registry ds'.scope))
    (hResolutions : (d.resolutions ds.registry ds.scope).map (Resolution.moved nowhere) =
      (d'.resolutions ds'.registry ds'.scope).map (Resolution.moved nowhere))
    (style : ListingStyle) : (d.compile ds style).SameButSpans (d'.compile ds' style) where
  generated := congrArg style.write hCalls
  resolutions := hResolutions
  diagnostics := by
    have hSites : (d.compile ds style).resolutions.map (Resolution.moved nowhere) =
        (d'.compile ds' style).resolutions.map (Resolution.moved nowhere) := hResolutions
    rw [compile_diagnostics h, compile_diagnostics h', Resolution.map_moved_filterMap_diagnostic?,
      Resolution.map_moved_filterMap_diagnostic?, hSites]

theorem compile_sameButSpans (h : parse source = .ok d) (h' : parse source' = .ok d')
    (hMarkup : d.markup.map (Node.moved nowhere) = d'.markup.map (Node.moved nowhere)) (hAlike : ds.Alike ds')
    (style : ListingStyle) : (d.compile ds style).SameButSpans (d'.compile ds' style) :=
  compile_sameButSpans_of_calls h h' (calls_of_same_markup h h' hMarkup hAlike)
    (resolutions_of_same_markup hMarkup hAlike) style

end Document
end TypedMarkup
