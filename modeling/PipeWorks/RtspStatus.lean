/-!
# RTSP connection status

The two values of `input_rtsp_status` and `output_rtsp_status`.
-/

set_option autoImplicit false

namespace PipeWorks

inductive RtspStatus where
  | disconnected
  | connected
  deriving DecidableEq, Repr

end PipeWorks
