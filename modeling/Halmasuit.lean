import Halmasuit.Broker.Churn
import Halmasuit.Broker.Codec
import Halmasuit.Broker.Gates
import Halmasuit.Broker.Greeter
import Halmasuit.Broker.Language
import Halmasuit.Broker.Ownership
import Halmasuit.Broker.Pending
import Halmasuit.Broker.Refusals
import Halmasuit.Broker.Sources
import Halmasuit.Broker.Trace
import Halmasuit.Compositor.Binding
import Halmasuit.Compositor.Decoder
import Halmasuit.Compositor.Foreground
import Halmasuit.Compositor.GreeterGate
import Halmasuit.Compositor.Identity
import Halmasuit.Compositor.Keys
import Halmasuit.Compositor.PageFlips
import Halmasuit.Compositor.Pivot
import Halmasuit.Compositor.Prompts
import Halmasuit.Compositor.Reaper
import Halmasuit.Compositor.RenderPaths
import Halmasuit.Compositor.Shutdown
import Halmasuit.Compositor.Stop
import Halmasuit.Compositor.Supervision
import Halmasuit.Compositor.TaskCaps
import Halmasuit.Compositor.Termination
import Halmasuit.Compositor.Threads
import Halmasuit.Compositor.Tokens
import Halmasuit.Compositor.VtIsolation
import Halmasuit.Compositor.VtSwitch
import Halmasuit.Decoder.Avio
import Halmasuit.Decoder.Lifecycle
import Halmasuit.Decoder.Sandbox
import Halmasuit.Drm.DeviceSpec
import Halmasuit.Drm.Outputs
import Halmasuit.Drm.Resolve
import Halmasuit.Drm.SceneCaches
import Halmasuit.Greetd.Replies
import Halmasuit.Greetd.Chunking
import Halmasuit.Introspect.Event
import Halmasuit.Kushuh.Guard
import Halmasuit.Kushuh.Schema
import Halmasuit.Lib.Amortised
import Halmasuit.Lib.Credentials
import Halmasuit.Lib.Rights
import Halmasuit.Lib.Search
import Halmasuit.Lib.Seccomp
import Halmasuit.Lib.Vt
import Halmasuit.Luks.Answers
import Halmasuit.Luks.Fidelity
import Halmasuit.Luks.Noninteractive
import Halmasuit.Protocol.Agreement
import Halmasuit.Protocol.Descriptors
import Halmasuit.Protocol.Fifo
import Halmasuit.Protocol.Lifecycle
import Halmasuit.Session.Leader
import Halmasuit.Session.Spawn
import Halmasuit.Wallpaper.Datagram
import Halmasuit.Wallpaper.EventBus
import Halmasuit.Wallpaper.Shader
import Halmasuit.Wallpaper.Uniforms
import Halmasuit.Wallpaper.Video
