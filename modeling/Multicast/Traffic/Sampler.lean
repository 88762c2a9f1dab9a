import Multicast.Traffic.Generator

/-!
Random draws from a seed. Sources and midpoints are uniform, lengths are exponential, and the number
of destinations is a Poisson count that is not zero. Equal seeds give equal draws.
-/

namespace Multicast

namespace Sampler

def below (bound : Nat) (generator : StdGen) : Nat × StdGen := randNat generator 0 (bound - 1)

def unit (generator : StdGen) : Float × StdGen :=
  let (numerator, later) := randNat generator 1 9007199254740992
  (numerator.toUInt64.toFloat / 9007199254740992.0, later)

/-- An exponential time with mean one. -/
def waiting (generator : StdGen) : Float × StdGen :=
  let (value, later) := unit generator
  (-value.log, later)

/-- The first arrival of a unit-rate process, given that it falls into the span. -/
def firstArrival (span : Float) (generator : StdGen) : Float × StdGen :=
  let (value, later) := unit generator
  (-(1.0 - value * (1.0 - (-span).exp)).log, later)

def arrivals (span : Float) : (limit : Nat) → (elapsed : Float) → StdGen → Nat × StdGen
  | 0, _, generator => (0, generator)
  | limit + 1, elapsed, generator =>
    let (gap, later) := waiting generator
    if elapsed + gap < span then
      let (count, last) := arrivals span limit (elapsed + gap) later
      (count + 1, last)
    else (0, later)

/-- A Poisson count with the given mean, given that it is not zero and counted up to a limit. -/
def countUpTo (limit : Nat) (mean : Float) (generator : StdGen) : Nat × StdGen :=
  let (first, later) := firstArrival mean generator
  let (more, last) := arrivals mean (limit - 1) first later
  (more + 1, last)

def choose : (count : Nat) → Array Nat → StdGen → List Nat × StdGen
  | 0, _, generator => ([], generator)
  | count + 1, elements, generator =>
    let (index, later) := below elements.size generator
    match elements[index]? with
    | none => ([], later)
    | some element =>
      let (others, last) := choose count (elements.swapIfInBounds index (elements.size - 1)).pop later
      (element :: others, last)

def meanDestinations (config : GeneratorConfig) (roles : NodeRoles) : Float :=
  let mean := config.meanDestinations.getD (roles.stationCount / 20).toUInt64.toFloat
  if 1.0 < mean then mean else 1.0

def meanDuration (config : GeneratorConfig) : Float :=
  (max (config.meanDuration.getD (config.finish / 5)) 1).toUInt64.toFloat

def draw (config : GeneratorConfig) (roles : NodeRoles) (generator : StdGen) : Draw × StdGen :=
  let candidates := roles.stationCount - 1
  let (source, afterSource) := below roles.stationCount generator
  let (count, afterCount) := countUpTo candidates (meanDestinations config roles) afterSource
  let (selection, afterSelection) := choose count (Array.range candidates) afterCount
  let (time, afterTime) := waiting afterSelection
  let (midpoint, last) := below config.finish afterTime
  let length := (time * meanDuration config).toUInt64.toNat
  (⟨source, selection, length, midpoint⟩, last)

def drawMany (config : GeneratorConfig) (roles : NodeRoles) : (count : Nat) → StdGen → List Draw
  | 0, _ => []
  | count + 1, generator =>
    let (first, later) := draw config roles generator
    first :: drawMany config roles count later

end Sampler

def GeneratorConfig.sample (config : GeneratorConfig) (roles : NodeRoles) : List Request :=
  if config.canGenerate roles then
    config.generate roles (Sampler.drawMany config roles config.count (mkStdGen config.seed))
  else []

end Multicast
