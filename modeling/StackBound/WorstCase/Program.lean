import StackBound.CallGraph.Graph
import StackBound.StackUsage.Table

/-! What the worst-case search looks at: which functions each function calls, in order, and what each
frame costs. Only finitely many names are ever called, which is what makes the search end. -/
namespace StackBound

namespace CallGraph

/-- Every name that someone calls, repetitions included. -/
def Graph.called (g : Graph) : List Name := g.targets.toList.flatMap (·.2.toList)

theorem Graph.mem_called {g : Graph} {f c : Name} (h : c ∈ g.callees f) : c ∈ g.called := by
  simp only [Graph.callees, Std.HashMap.getD_eq_getD_getElem?] at h
  cases found : g.targets[f]? with
  | none => simp [found] at h
  | some known =>
    simp only [found, Option.getD_some] at h
    exact List.mem_flatMap.2 ⟨(f, known), Std.HashMap.mem_toList_iff_getElem?_eq_some.2 found, h⟩

def Overlay.called (o : Overlay) : List Name := o.extra.toList.flatMap (·.2)

theorem Overlay.mem_called {o : Overlay} {f c : Name} (h : c ∈ o.own f) : c ∈ o.called := by
  simp only [Overlay.own, Std.HashMap.getD_eq_getD_getElem?] at h
  cases found : o.extra[f]? with
  | none => simp [found] at h
  | some assumed =>
    simp only [found, Option.getD_some] at h
    exact List.mem_flatMap.2 ⟨(f, assumed), Std.HashMap.mem_toList_iff_getElem?_eq_some.2 found, h⟩

theorem Overlay.mem_accept {g : Graph} {f a c : Name} {added : List Name}
    (h : c ∈ accept g f added a) : c ∈ added ∨ c = a := by
  unfold accept at h
  split at h
  · exact .inl h
  · simpa using h

theorem Overlay.mem_foldl_accept {g : Graph} {f c : Name} (assumed added : List Name)
    (h : c ∈ assumed.foldl (accept g f) added) : c ∈ added ∨ c ∈ assumed := by
  induction assumed generalizing added with
  | nil => exact .inl h
  | cons a rest ih =>
    rcases ih _ h with h | h
    · exact (mem_accept h).imp_right fun e => by simp [e]
    · exact .inr (List.mem_cons_of_mem _ h)

theorem Overlay.mem_callees {o : Overlay} {g : Graph} {f c : Name} (h : c ∈ o.callees g f) :
    c ∈ g.callees f ∨ c ∈ o.own f := by
  rcases List.mem_append.1 h with h | h
  · exact .inl h
  · exact .inr ((mem_foldl_accept _ _ h).resolve_left List.not_mem_nil)

end CallGraph

structure Program where
  callees : Name → List Name
  frameSize : Name → Int64
  /-- Every name that is called. -/
  names : List Name
  callees_mem : ∀ {f c : Name}, c ∈ callees f → c ∈ names

open CallGraph in
def Program.ofGraph (g : Graph) (overlay : Overlay) (frameSize : Name → Int64) : Program where
  callees := overlay.callees g
  frameSize := frameSize
  names := g.called ++ overlay.called
  callees_mem h := List.mem_append.2 <|
    (Overlay.mem_callees h).imp Graph.mem_called Overlay.mem_called

end StackBound
