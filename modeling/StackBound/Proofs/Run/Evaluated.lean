import StackBound.Run.Analysis

/-! What holds of every analysis that a run returns, whatever the run was given: its graph was built from
calls, and its evaluation is that of its own scenarios, over its own graph and frame sizes, from its own
entry points. -/
namespace StackBound

open CallGraph (Edge)

/-- What a run leaves behind: a graph that was built call by call, and the evaluation of its own
scenarios from its own entry points. -/
structure Analysis.Evaluated (a : Analysis) : Prop where
  graph : ∃ edges, a.graph = .ofEdges edges
  evaluation :
    Evaluation.run false a.graph a.table.frameSize a.scenarios a.entryPoints = .ok a.evaluation

theorem Analysis.Evaluated.eq_of {a : Analysis} (h : a.Evaluated) :
    a.evaluation = .of a.graph a.table.frameSize a.scenarios a.entryPoints :=
  (Except.ok.inj h.evaluation).symm

namespace Run

variable {σ : Type} {c : Caching σ} {tree : Tree} {canceled : Bool} {o : Options} {t : Trace σ}

theorem graph_of_assemble {listings : Inputs StackUsage.Listing}
    {ignored : (Edge → Bool) × List Warning} {dumps : Inputs CallGraph.Dump} {a : Analysis}
    (made : assemble tree o listings ignored dumps = .ok a) : ∃ edges, a.graph = .ofEdges edges := by
  simp only [assemble, bind, Except.bind] at made
  split at made
  · cases made
  · split at made
    · cases made
    · obtain rfl := Except.ok.inj made
      exact ⟨_, rfl⟩

theorem evaluated_of_evaluate {a b : Analysis} (graph : ∃ edges, a.graph = .ofEdges edges)
    (done : (evaluate canceled a t).1 = .ok b) : b.Evaluated := by
  simp only [evaluate] at done
  split at done
  · cases done
  next e ran =>
    obtain rfl := Except.ok.inj done
    refine ⟨graph, ?_⟩
    simp only [Evaluation.run] at ran ⊢
    split at ran
    · cases ran
    · exact ran

/-- Stages that end with an analysis have gathered the files of both kinds, one kind after the other,
and have evaluated what was put together from them. -/
theorem stages_eq_of_ok {a : Analysis} (done : (stages c tree canceled o t).1 = .ok a) :
    ∃ listings ignored dumps between last assembled,
      gather c .stackUsage tree o.refresh o.suDirs recordCount t = (.ok listings, between) ∧
      gather c .callGraph tree o.refresh o.cgraphDirs (edgeCount ignored.1) between =
        (.ok dumps, last) ∧
      assemble tree o listings ignored dumps = .ok assembled ∧
      stages c tree canceled o t = evaluate canceled assembled last := by
  unfold stages at done ⊢
  split at done
  · cases done
  next listings between first =>
  split at done
  · cases done
  next recorded =>
  split at done
  · cases done
  next ignored set =>
  split at done
  · cases done
  next dumps last second =>
  split at done
  · cases done
  next assembled made =>
  exact ⟨listings, ignored, dumps, between, last, assembled, first, second, made, if_neg recorded⟩

/-- A run that ends with an analysis has gone through its stages with the options as checked. -/
theorem execute_eq_of_ok {a : Analysis} (done : (execute c tree canceled o t).1 = .ok a) :
    execute c tree canceled o t = stages c tree canceled o.check.1 t := by
  unfold execute at done ⊢
  split at done
  · cases done
  next checked => rw [checked]

/-- Whatever a run returns is evaluated. -/
theorem evaluated_of_execute {a : Analysis} (done : (execute c tree canceled o t).1 = .ok a) :
    a.Evaluated := by
  rw [execute_eq_of_ok done] at done
  obtain ⟨_, _, _, _, _, assembled, -, -, made, same⟩ := stages_eq_of_ok done
  rw [same] at done
  exact evaluated_of_evaluate (graph_of_assemble made) done

end Run
end StackBound
