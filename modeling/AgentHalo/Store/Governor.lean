import AgentHalo.Base.Platform

/-!
# The memory governor

The PD/PID controller that paces evictions from the blob store and the vector index. Its arithmetic is that of the
doubles `A`; the stores read only `epsilon` and `isFromRest` from it.
-/

namespace AgentHalo.Store

instance (A : F64) : Add A.F := ⟨A.add⟩
instance (A : F64) : Sub A.F := ⟨A.sub⟩
instance (A : F64) : Mul A.F := ⟨A.mul⟩
instance (A : F64) : Div A.F := ⟨A.div⟩
instance (A : F64) : Neg A.F := ⟨A.neg⟩

variable {A : F64}

def clamp (x lo hi : A.F) : A.F := A.min (A.max x lo) hi

def governorError (rTarget delta epsilon : A.F) : A.F := delta / epsilon - rTarget

def governorStep (epsilon ePrev delta dt alpha beta epsMin epsMax rTarget : A.F) : A.F :=
  let e := governorError rTarget delta epsilon
  let dError := (e - ePrev) / dt
  let adjustment := alpha * e + beta * dError
  clamp (epsilon + adjustment) epsMin epsMax

structure PidStepResult (A : F64) where
  epsilon : A.F
  integral : A.F
  clamped : Bool

def governorStepPid (epsilon ePrev integralPrev delta dt alpha beta ki kb epsMin epsMax rTarget : A.F) :
    PidStepResult A :=
  let e := governorError rTarget delta epsilon
  let dError := (e - ePrev) / dt
  let unclamped := epsilon + alpha * e + ki * integralPrev + beta * dError
  let clampedEps := clamp unclamped epsMin epsMax
  { epsilon := clampedEps
    integral := integralPrev + e * dt + kb * (clampedEps - unclamped)
    clamped := A.lt A.epsilon (A.abs (clampedEps - unclamped)) }

inductive LoadRegime where
  | quiet
  | active
  | burst
deriving DecidableEq, Repr

def LoadRegime.classify (occupancyRatio : A.F) : LoadRegime :=
  if A.lt occupancyRatio (A.lit 5 1) then .quiet
  else if A.lt occupancyRatio (A.lit 9 1) then .active
  else .burst

structure AdaptiveGainSchedule (A : F64) where
  quietAlphaScale : A.F
  quietBetaScale : A.F
  quietKiScale : A.F
  activeAlphaScale : A.F
  activeBetaScale : A.F
  activeKiScale : A.F
  burstAlphaScale : A.F
  burstBetaScale : A.F
  burstKiScale : A.F

def AdaptiveGainSchedule.default (A : F64) : AdaptiveGainSchedule A where
  quietAlphaScale := A.lit 15 1
  quietBetaScale := A.lit 5 1
  quietKiScale := A.lit 10 1
  activeAlphaScale := A.lit 10 1
  activeBetaScale := A.lit 10 1
  activeKiScale := A.lit 10 1
  burstAlphaScale := A.lit 5 1
  burstBetaScale := A.lit 20 1
  burstKiScale := A.lit 5 1

def AdaptiveGainSchedule.effectiveGains (s : AdaptiveGainSchedule A) (baseAlpha baseBeta baseKi : A.F) :
    LoadRegime → A.F × A.F × A.F
  | .quiet => (baseAlpha * s.quietAlphaScale, baseBeta * s.quietBetaScale, baseKi * s.quietKiScale)
  | .active => (baseAlpha * s.activeAlphaScale, baseBeta * s.activeBetaScale, baseKi * s.activeKiScale)
  | .burst => (baseAlpha * s.burstAlphaScale, baseBeta * s.burstBetaScale, baseKi * s.burstKiScale)

structure GovernorConfig (A : F64) where
  instanceId : String
  alpha : A.F
  beta : A.F
  dt : A.F
  epsMin : A.F
  epsMax : A.F
  target : A.F
  formalBasis : String
  ki : A.F
  kb : A.F
  adaptive : Option (AdaptiveGainSchedule A)

structure GovernorState (A : F64) where
  config : GovernorConfig A
  epsilon : A.F
  ePrev : A.F
  integral : A.F
  lastMeasuredSignal : Option A.F
  lastLyapunov : Option A.F
  oscillating : Bool
  clampActive : Bool
  currentRegime : Option LoadRegime

namespace GovernorState

def new (config : GovernorConfig A) : GovernorState A where
  config := config
  epsilon := config.epsMin
  ePrev := A.lit 0 0
  integral := A.lit 0 0
  lastMeasuredSignal := none
  lastLyapunov := none
  oscillating := false
  clampActive := false
  currentRegime := none

def error (g : GovernorState A) (delta : A.F) : A.F := governorError g.config.target delta g.epsilon

def lyapunov (g : GovernorState A) (delta : A.F) : A.F :=
  let e := g.error delta
  A.lit 5 1 * e * e

def isFromRest (g : GovernorState A) : Bool :=
  g.lastMeasuredSignal.isNone && A.le (A.abs g.ePrev) A.epsilon && A.le (A.abs g.integral) A.epsilon

/-- The gains in force: the configured ones, scaled by the load regime when a schedule is set. -/
def effectiveGains (g : GovernorState A) (regime : LoadRegime) : A.F × A.F × A.F :=
  match g.config.adaptive with
  | some schedule => schedule.effectiveGains g.config.alpha g.config.beta g.config.ki regime
  | none => (g.config.alpha, g.config.beta, g.config.ki)

def step (g : GovernorState A) (delta : A.F) : GovernorState A :=
  let hadHistory := g.lastMeasuredSignal.isSome
  let previousLyapunov := g.lyapunov delta
  let e := g.error delta
  let occupancy := if A.lt (A.lit 0 0) g.config.target then delta / g.config.target else A.lit 10 1
  let regime := LoadRegime.classify occupancy
  let g := { g with currentRegime := if g.config.adaptive.isSome then some regime else none }
  let (effAlpha, effBeta, effKi) := g.effectiveGains regime
  let g :=
    if A.lt (A.lit 0 0) effKi then
      let result := governorStepPid g.epsilon g.ePrev g.integral delta g.config.dt effAlpha effBeta effKi g.config.kb
        g.config.epsMin g.config.epsMax g.config.target
      { g with epsilon := result.epsilon, integral := result.integral, clampActive := result.clamped }
    else
      let eps := governorStep g.epsilon g.ePrev delta g.config.dt effAlpha effBeta g.config.epsMin g.config.epsMax
        g.config.target
      { g with
        epsilon := eps
        clampActive := A.lt (A.abs (eps - g.config.epsMin)) A.epsilon
          || A.lt (A.abs (eps - g.config.epsMax)) A.epsilon }
  let g := { g with ePrev := e }
  let lyapunov := g.lyapunov delta
  { g with
    oscillating := hadHistory && A.lt previousLyapunov lyapunov
    lastMeasuredSignal := some delta
    lastLyapunov := some lyapunov }

def reset (g : GovernorState A) : GovernorState A :=
  { g with
    ePrev := A.lit 0 0
    integral := A.lit 0 0
    lastMeasuredSignal := none
    lastLyapunov := none
    oscillating := false
    clampActive := false
    currentRegime := none }

end GovernorState

end AgentHalo.Store
