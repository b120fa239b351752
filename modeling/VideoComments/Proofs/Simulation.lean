import VideoComments.Proofs.Program

/-!
# Programs that agree

Two programs, each with someone of its own to answer it, `Agree` under a relation between their
states if from related states they end with the same value, in related states. Programs agree that
are put together from programs that agree, and a program agrees with itself if the answers to its
calls do (`agree_of_exchanges`). Programs that agree can be run one after another, with time passing
before each (`serve`), and still agree (`serve_agree`).
-/

namespace VideoComments.Program

variable {σ τ α β : Type} {h : Handler σ} {h' : Handler τ} {R : σ → τ → Prop}

/-! ## One program after another -/

/-- From related states the programs end with the same value, in related states. -/
def Agree (h : Handler σ) (h' : Handler τ) (R : σ → τ → Prop) (p p' : Program α) : Prop :=
  ∀ s t, R s t → (p.run h s).1 = (p'.run h' t).1 ∧ R (p.run h s).2 (p'.run h' t).2

theorem agree_pure (a : α) : Agree h h' R (pure a) (pure a) := fun _ _ hR => ⟨rfl, hR⟩

theorem Agree.bind {p p' : Program α} {f f' : α → Program β} (hp : Agree h h' R p p')
    (hf : ∀ a, Agree h h' R (f a) (f' a)) : Agree h h' R (p >>= f) (p' >>= f') := by
  intro s t hR
  obtain ⟨hvalue, hstates⟩ := hp s t hR
  rw [run_bind, run_bind, ← hvalue]
  exact hf _ _ _ hstates

theorem agree_emit (hreceive : ∀ signal s t, R s t → R (h.receive signal s) (h'.receive signal t))
    (signal : Signal) {p p' : Program α} (hp : Agree h h' R p p') :
    Agree h h' R (emit signal p) (emit signal p') :=
  fun s t hR => hp _ _ (hreceive signal s t hR)

theorem agree_log (hreceive : ∀ signal s t, R s t → R (h.receive signal s) (h'.receive signal t))
    (level : Level) (message : String) : Agree h h' R (log level message) (log level message) :=
  agree_emit hreceive _ (agree_pure ())

/-- **A program agrees with itself** if the answers to the calls that it makes do, and then it makes
the same calls and gets the same answers. -/
theorem run_agree
    (hreceive : ∀ signal s t, R s t → R (h.receive signal s) (h'.receive signal t))
    {may : Call → Prop} (hask : ∀ c, may c → Agree h h' R (ask c) (ask c)) {p : Program α} {s : σ}
    {t : τ} (hp : ∀ x ∈ p.exchanges h s, may x.1) (hR : R s t) :
    p.exchanges h s = p.exchanges h' t ∧ (p.run h s).1 = (p.run h' t).1 ∧
      R (p.run h s).2 (p.run h' t).2 := by
  induction p generalizing s t with
  | done a => exact ⟨rfl, rfl, hR⟩
  | emit signal next ih => exact ih hp (hreceive signal s t hR)
  | await c next ih =>
    obtain ⟨hc, hnext⟩ := List.forall_mem_cons.1 hp
    obtain ⟨hanswer, hstates⟩ := hask c hc s t hR
    rw [run_ask, run_ask] at hanswer hstates
    have hexchanges : (await c next).exchanges h' t = ⟨c, (h.answer c s).1⟩ ::
        (next (h.answer c s).1).exchanges h' (h'.answer c t).2 := by
      rw [hanswer]
      rfl
    have hrun : (await c next).run h' t = (next (h.answer c s).1).run h' (h'.answer c t).2 := by
      rw [hanswer]
      rfl
    obtain ⟨hrest, hends⟩ := ih _ hnext hstates
    rw [hexchanges, hrun, ← hrest]
    exact ⟨rfl, hends⟩

/-! ## Many programs -/

section

variable {ι : Type} {A : ι → Type}

/-- Runs programs one after another, with time passing before each. -/
def serve (h : Handler σ) (pass : σ → Nat → σ) (program : (i : ι) → Program (A i)) :
    List (Nat × ι) → σ → List ((i : ι) × A i) × σ
  | [], s => ([], s)
  | (wait, i) :: rest, s =>
    let (a, s) := (program i).run h (pass s wait)
    let (as, s) := serve h pass program rest s
    (⟨i, a⟩ :: as, s)

/-- **Programs that agree go on agreeing**, one after another. -/
theorem serve_agree {pass : σ → Nat → σ} {pass' : τ → Nat → τ}
    (hpass : ∀ wait s t, R s t → R (pass s wait) (pass' t wait))
    {program program' : (i : ι) → Program (A i)} {visits : List (Nat × ι)}
    (hagree : ∀ v ∈ visits, Agree h h' R (program v.2) (program' v.2)) {s : σ} {t : τ}
    (hR : R s t) :
    (serve h pass program visits s).1 = (serve h' pass' program' visits t).1 ∧
      R (serve h pass program visits s).2 (serve h' pass' program' visits t).2 := by
  induction visits generalizing s t with
  | nil => exact ⟨rfl, hR⟩
  | cons v rest ih =>
    obtain ⟨hv, hrest⟩ := List.forall_mem_cons.1 hagree
    obtain ⟨hanswer, hstates⟩ := hv _ _ (hpass v.1 s t hR)
    obtain ⟨hanswers, hends⟩ := ih hrest hstates
    refine ⟨?_, hends⟩
    rw [serve, serve]
    simp only
    rw [hanswer, hanswers]

end

end VideoComments.Program
