import LinuxEmbedded.Lib.Lifecycle

/-
Loading and unloading the three drivers.

`chdev_init`, `led_init` of `led.c` and `led_init` of `led-subsystem.c` are runs of
stages with cleanup labels, and the exit functions release what is held.  A process
may open the device as soon as the kernel finds it, and a module with an open file is
not unloaded.  `class_create` and `device_create` report a failure by an error
pointer, never by `NULL`.
-/
namespace LinuxEmbedded
namespace Drivers

open Lifecycle

inductive Res where
  /-- The memory from `kmalloc`. -/
  | buffer
  /-- The device numbers from `alloc_chrdev_region`. -/
  | region
  /-- The major number from `register_chrdev`, with its `cdev`. -/
  | chrdev
  | «class»
  | device
  | cdev
  /-- The registers from `ioremap`. -/
  | registers
  /-- The pin from `gpio_request`. -/
  | gpio
  deriving DecidableEq, Repr

/-- `charDev.c`.  The pointers are tested for `NULL`. -/
def chdev : Component Res where
  stages :=
    [⟨some .buffer, .null, .null, []⟩,
      ⟨some .region, .error, .error, [.buffer]⟩,
      ⟨some .class, .error, .null, [.region, .buffer]⟩,
      ⟨some .device, .error, .null, [.class, .region, .buffer]⟩,
      ⟨some .cdev, .error, .error, [.device, .class, .region, .buffer]⟩]
  teardown := [.buffer, .cdev, .device, .class, .region]
  published := .cdev
  needs := [.buffer]
  undo_eq := by decide
  nodup := by decide
  teardown_perm := by decide
  needs_sub := by decide
  needs_ne := by decide
  stages_ne := by decide

/-- `led.c`.  The pointers are tested for `NULL`, and `cdev_add` comes before the buffer
and the registers of `m_write`. -/
def led : Component Res where
  stages :=
    [⟨some .region, .error, .error, []⟩,
      ⟨some .class, .error, .null, [.region]⟩,
      ⟨some .device, .error, .null, [.class, .region]⟩,
      ⟨some .cdev, .error, .error, [.device, .class, .region]⟩,
      ⟨some .buffer, .null, .null, [.cdev, .device, .class, .region]⟩,
      ⟨some .registers, .null, .null, [.buffer, .cdev, .device, .class, .region]⟩]
  teardown := [.registers, .buffer, .cdev, .device, .class, .region]
  published := .cdev
  needs := [.buffer, .registers]
  undo_eq := by decide
  nodup := by decide
  teardown_perm := by decide
  needs_sub := by decide
  needs_ne := by decide
  stages_ne := by decide

/-- `led-subsystem.c`.  The pointers are tested with `IS_ERR`. -/
def ledSubsystem : Component Res where
  stages :=
    [⟨some .gpio, .error, .error, []⟩,
      ⟨none, .error, .error, [.gpio]⟩,
      ⟨some .chrdev, .error, .error, [.gpio]⟩,
      ⟨some .class, .error, .error, [.chrdev, .gpio]⟩,
      ⟨some .device, .error, .error, [.class, .chrdev, .gpio]⟩]
  teardown := [.device, .class, .chrdev, .gpio]
  published := .chrdev
  needs := [.gpio]
  undo_eq := by decide
  nodup := by decide
  teardown_perm := by decide
  needs_sub := by decide
  needs_ne := by decide
  stages_ne := by decide

inductive Driver where
  | chdev
  | led
  | ledSubsystem
  deriving DecidableEq, Repr

def Driver.component : Driver → Component Res
  | .chdev => Drivers.chdev
  | .led => Drivers.led
  | .ledSubsystem => Drivers.ledSubsystem

/-- The stages that call `class_create` and `device_create` and test for `NULL`. -/
def Driver.unnoticed : Driver → List Nat
  | .chdev => [2, 3]
  | .led => [1, 2]
  | .ledSubsystem => []

/-- No error pointer is taken for a valid one, and no file is opened before the init
function has returned 0. -/
def Careful (d : Driver) (s : State Res) : Act → Prop
  | .call false => ∀ k ∈ d.unnoticed, s.pc ≠ .loading k
  | .enter => s.pc = .up
  | _ => True

instance (d : Driver) (s : State Res) (a : Act) : Decidable (Careful d s a) := by
  unfold Careful
  split <;> infer_instance

/-- The stage with a missed failure is one of the unnoticed ones, and it acquires something. -/
theorem unnoticed_iff {d : Driver} {k : Nat} {stage : Stage Res}
    (h : d.component.stages[k]? = some stage) :
    k ∉ d.unnoticed ↔ stage.resource = none ∨ stage.test = stage.reports := by
  have hk : k < d.component.stages.length := (List.getElem?_eq_some_iff.mp h).1
  have hall : ∀ d : Driver, ∀ k < d.component.stages.length, ∀ stage ∈ d.component.stages[k]?,
      (k ∉ d.unnoticed ↔ stage.resource = none ∨ stage.test = stage.reports) := by
    intro d
    cases d <;> decide
  exact hall d k hk stage h

theorem careful_iff {d : Driver} {s t : State Res} {a : Act} {os : List (Event Res)}
    (h : step d.component s a = some (t, os)) :
    Careful d s a ↔ Good d.component s a := by
  cases a with
  | call ok =>
    cases ok with
    | true => exact Iff.rfl
    | false =>
      cases hpc : s.pc with
      | loading k =>
        simp only [step, hpc] at h
        obtain ⟨stage, hstage, -⟩ := Option.bind_eq_some_iff.mp h
        constructor
        · intro hcareful j stage' hj hstage'
          rw [hpc] at hj
          cases hj
          refine (unnoticed_iff hstage').mp ?_
          intro hin
          exact hcareful k hin hpc
        · intro hgood j hj hpc'
          rw [hpc] at hpc'
          cases hpc'
          exact (unnoticed_iff hstage).mpr (hgood k stage hpc hstage) hj
      | _ => simp [step, hpc] at h
  | _ => exact Iff.rfl

theorem last_notices (d : Driver) :
    ∃ last, d.component.stages[d.component.stages.length - 1]? = some last ∧
      last.test = last.reports := by
  cases d <;> exact ⟨_, rfl, rfl⟩

/-- The character device is opened and used only while it is loaded, with its buffer
allocated; when neither `class_create` nor `device_create` fails, each resource is released
once and nothing is held after a failed load or an unload. -/
theorem chdev_released {as : List Act} {s : State Res} {os : List (Event Res)}
    (hrun : Machine.run (step chdev) start as = some (s, os))
    (hcalls : Machine.Meets (step chdev)
      (fun u a => a = .call false → u.pc ≠ .loading 2 ∧ u.pc ≠ .loading 3) start as) :
    (∀ e ∈ os, e.Ok) ∧ (s.clients ≠ 0 → s.pc = .up ∧ .buffer ∈ s.held) ∧
      (s.pc = .down → s.held = []) := by
  have hpublished : ∀ k < chdev.stages.length, chdev.published ∉ acquired chdev.stages k := by
    decide
  have hgood : Machine.Meets (step chdev) (Good chdev) start as := by
    refine (Machine.meets_congr (I := Inv chdev) ?_ ?_ inv_start hrun).mp hcalls
    · intro u a v es hu hstep
      refine Iff.trans ?_ (careful_iff (d := .chdev) hstep)
      cases a with
      | call ok =>
        cases ok with
        | true => exact iff_of_true nofun trivial
        | false =>
          show (_ → _) ↔ ∀ k ∈ [2, 3], u.pc ≠ .loading k
          rw [List.forall_mem_cons, List.forall_mem_singleton]
          exact ⟨fun h => h rfl, fun h _ => h⟩
      | enter => exact iff_of_true nofun (enter_up hpublished hu hstep)
      | _ => exact iff_of_true nofun trivial
    · intro u a v es hu _ hstep
      exact inv_moves hu (step_moves chdev hstep)
  obtain ⟨hsound, hok⟩ := sound_of_run hgood sound_start hrun
  refine ⟨hok, ?_, ?_⟩
  · intro hclients
    have hup := hsound.clients.resolve_left hclients
    refine ⟨hup, hsound.expected_sub ?_⟩
    rw [hup]
    decide
  · intro hdown
    have hsub := hsound.inv.held_sub
    rw [hdown] at hsub
    exact List.subset_nil.mp hsub

/-- `led.c` with a file opened between `cdev_add` and `kmalloc`. -/
def openedEarly : List Act :=
  [.load, .call true, .call true, .call true, .call true, .enter, .call true, .call true]

/-- An init that fails at `cdev_add`, a second one that succeeds, and an unload. -/
def reloaded : List Act :=
  [.load, .call true, .call true, .call true, .call true, .call false] ++
    List.replicate 5 .release ++
    [.load, .call true, .call true, .call true, .call true, .call true, .enter, .use, .leave,
      .unload] ++ List.replicate 6 .release

theorem chdev_released_reloaded :
    ∃ s os, Machine.run (step chdev) start reloaded = some (s, os) ∧ s.held = [] := by
  have hmap : (Machine.run (step chdev) start reloaded).map (fun q => q.1.pc) = some .down := by
    decide
  obtain ⟨⟨s, os⟩, hrun, hpc⟩ := Option.map_eq_some_iff.mp hmap
  exact ⟨s, os, hrun, (chdev_released hrun (by decide)).2.2 hpc⟩

end Drivers
end LinuxEmbedded
