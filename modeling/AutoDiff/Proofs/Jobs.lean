import AutoDiff.Artifact.Load

namespace AutoDiff

@[simp] theorem mapError_ok {ε δ β : Type} (f : ε → δ) (b : β) : (Except.ok b).mapError f = .ok b := rfl

@[simp] theorem mapError_error {ε δ β : Type} (f : ε → δ) (e : ε) :
    (Except.error e : Except ε β).mapError f = .error (f e) := rfl

namespace Job

variable {ε β γ : Type}

theorem run_bind (job : Job ε β) (next : β → Job ε γ) (h : Host) :
    (job >>= next).run.run h =
      match job.run.run h with
      | (.ok b, after) => (next b).run.run after
      | (.error e, after) => (.error e, after) := by
  rw [ExceptT.run_bind, StateT.run_bind]
  cases job.run.run h with
  | mk result after => cases result <;> rfl

@[simp] theorem run_pure (b : β) (h : Host) : (pure b : Job ε β).run.run h = (.ok b, h) := rfl

@[simp] theorem run_throw (e : ε) (h : Host) : (throw e : Job ε β).run.run h = (.error e, h) := rfl

@[simp] theorem run_get (h : Host) : (get : Job ε Host).run.run h = (.ok h, h) := rfl

@[simp] theorem run_ofExcept (result : Except ε β) (h : Host) :
    (Artifact.ofExcept result).run.run h = (result, h) := rfl

theorem run_adapt {δ : Type} (job : Job ε β) (report : ε → δ) (h : Host) :
    (job.adapt report).run.run h = ((job.run.run h).1.mapError report, (job.run.run h).2) := rfl

theorem run_record (level : LogLevel) (text : String) (h : Host) :
    (record level text : Job ε Unit).run.run h = (.ok (), { h with log := h.log ++ [⟨level, text⟩] }) := rfl

end Job

namespace Artifact

theorem run_openInterpreted (name : String) (generic : Path) (h : Host) :
    (openInterpreted name generic).run.run h =
      if isModelName name then
        if h.isFile (kernels generic) then
          match h.disk.readText h.workingDirectory (kernels generic) with
          | .error e => (.error (.read (kernels generic) e), h)
          | .ok text =>
            match KernelSet.parse? text with
            | none => (.error .malformedKernels, h)
            | some k =>
              match k.toArtifact with
              | .error e => (.error e, h)
              | .ok a => (.ok a, { h with log := h.log ++ [⟨.debug, loadedText (kernels generic) a⟩] })
        else (.error (.notFound (kernels generic)), h)
      else (.error (.invalidModelName name), h) := by
  unfold openInterpreted checkName
  rw [Job.run_bind, Job.run_ofExcept]
  by_cases named : isModelName name = true
  · simp only [named, if_true, checkFile, Job.run_bind, Job.run_get]
    by_cases there : h.isFile (kernels generic) = true
    · simp only [there, if_true, Job.run_pure, Job.run_adapt, Job.readText, Job.run_bind, Job.run_get]
      cases h.disk.readText h.workingDirectory (kernels generic) with
      | error e => rfl
      | ok text =>
          simp only [Job.run_pure, mapError_ok]
          cases KernelSet.parse? text with
          | none => rfl
          | some k =>
              simp only [Job.run_bind, Job.run_ofExcept]
              cases k.toArtifact <;> rfl
    · simp only [there]
      rfl
  · simp [named]

end Artifact

end AutoDiff
