import Compositor.Text.Decimal
import Compositor.Trace.Event

/-!
# Trace lines

Every event as one line for people. Times are microseconds, rounded to tenths.
-/

namespace Compositor

private def microseconds (x : Float) : String := Text.writeTenths x ++ "µs"

private def moment (t : Instant) : String := "at " ++ microseconds t.inMicros

/-- The line of an event. -/
def TraceEvent.line : TraceEvent → String
  | damage frame output buffer rects area full =>
    s!"[damage] frame={frame} output={output.number} buffer={buffer.number} rects={rects} " ++
      s!"area={area}" ++ if full then " full" else ""
  | phaseBegin frame phase time => s!"[phase:begin] frame={frame} {phase.name} {moment time}"
  | phaseEnd frame phase time => s!"[phase:end] frame={frame} {phase.name} {moment time}"
  | passBegin frame buffer width height =>
    s!"[pass:begin] frame={frame} buffer={buffer.number} {width}x{height}"
  | passSubmit frame buffer ops skipped duration =>
    let took := (duration.map fun d => microseconds d.inMicros).getD "?"
    s!"[pass:submit] frame={frame} buffer={buffer.number} ops={ops} skipped={skipped} took={took}"
  | drawSkipped frame buffer count =>
    s!"[skipped] frame={frame} buffer={buffer.number} count={count}"
  | commit frame output buffer fields accepted time =>
    let shown := (buffer.map fun b => s!"{b.number}").getD "none"
    let bits := String.ofList (Nat.toDigits 16 fields.bits)
    let verdict := if accepted then "ok" else "REJECTED"
    s!"[commit] frame={frame} output={output.number} buffer={shown} fields=0x{bits} " ++
      s!"{verdict} {moment time}"
  | summary s =>
    let spans := [("damage", s.damage), ("render", s.render), ("submit", s.submit),
      ("commit", s.commit)].map fun (name, d) => name ++ "=" ++ microseconds d.inMicros
    let fate := if s.committed then "committed" else "dropped"
    s!"[summary] frame={s.frame} output={s.output.number} " ++ " ".intercalate spans ++
      s!" area={s.area} {fate}"

end Compositor
