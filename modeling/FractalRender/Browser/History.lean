import FractalRender.Browser
import FractalRender.Session.History

/-!
# What a page does to its session

Everything that a page can do to its session, as data, and the loop in which it draws.  A session of
a page is *reachable* when such operations lead to it from one that was made of texts.
-/

namespace FractalRender.Browser

/-- Something that a page does to its session. -/
inductive PageOperation where
  | setConfigJson (text : String)
  | requestRender
  | step
  | zoomAt (position : Point Float) (factor : Float)
  | pan (drag : Point Float)
  | resetView
  | resize (surface : Surface)
  | attachExports (moduleName : String) (o : PageObject)
  | attachNative
  | backendFailed (reason : String)

namespace PageSession

/-- The session after an operation, at a reading of the host's clock. -/
def perform (p : PageSession) (now : Float) : PageOperation → PageSession
  | .setConfigJson text => (p.setConfigJson text now).1
  | .requestRender => (p.requestRender now).1
  | .step => (p.step now).1
  | .zoomAt position factor => (p.zoomAt position factor now).1
  | .pan drag => (p.pan drag now).1
  | .resetView => (p.resetView now).1
  | .resize surface => (p.resize surface now).1
  | .attachExports moduleName o => (p.attachExports moduleName o now).1
  | .attachNative => p.attachNative now
  | .backendFailed reason => p.backendFailed reason

/-- The session was made of texts, and then operations led to it. -/
inductive Reachable : PageSession → Prop where
  | new {surface : Surface} {configJson optionsJson : String} {p : PageSession}
      (h : new surface configJson optionsJson = .ok p) : Reachable p
  | perform {p : PageSession} (h : Reachable p) (now : Float) (op : PageOperation) :
      Reachable (p.perform now op)

end PageSession

end FractalRender.Browser
